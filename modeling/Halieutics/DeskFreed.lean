/-
**A freed desk stays dead.**

`free_desk` is run by `new_desk` when it is through, by `cli:dismiss_apply` of the master and by
`desk.force_dismiss`.  Before the game the last two run while `new_desk` is parked on the barrier
`ready`, and nothing ever tells `new_desk` that its desk is gone: a later `ready` of the master
wakes it up on a desk that is being freed.  Nor does a dismissal see another one that is under way,
or a game whose barrier has just been released.

Everybody who may free the desk holds a *ticket*: a walk of `back_roomcard` that ends in
`free_desk`, `new_desk` once the barrier is released, and the run of `free_desk` itself.  The desk
stays dead as long as there is at most one ticket.

Main definitions:

* `Halieutics.StaysDead` — no game begins after `free_desk`, which runs once, and the id of the desk
  is not used after the lobby has taken it back;
* `Halieutics.Parked` — `new_desk` waits on the barrier `ready`, or is on its way to it;
* `Halieutics.DismissedOnce` — **the condition**.

Main results:

* `Halieutics.freedInv_of_dismissedOnce` — there is at most one ticket;
* `Halieutics.staysDead_of_dismissedOnce` — **a freed desk stays dead**;
* `Halieutics.ready_wakes_freed_desk` — a `ready` during `free_desk` starts a game on a dead desk.
-/

import Halieutics.DeskPlayed

set_option relaxedAutoImplicit false
set_option autoImplicit false

namespace Halieutics

open LuaTable Coroutine

/-! ### Death -/

/-- **A freed desk stays dead**: once `free_desk` has begun no game begins and `free_desk` is not
run again, and once the lobby has taken the id of the desk back neither `gamedb.free_desk` nor
`roomlobby.free` is called with it. -/
structure StaysDead (hist : List Act) : Prop where
  game : .mark .doGame ∉ since (.mark .freeDesk) hist
  free : .mark .freeDesk ∉ since (.mark .freeDesk) hist
  gamedb : .rpc .freeDesk ∉ since (.rpc .lobbyFree) hist
  lobby : .rpc .lobbyFree ∉ since (.rpc .lobbyFree) hist

theorem staysDead_iff (hist : List Act) :
    StaysDead hist ↔ (.mark .doGame ∉ since (.mark .freeDesk) hist ∧
      .mark .freeDesk ∉ since (.mark .freeDesk) hist) ∧
      .rpc .freeDesk ∉ since (.rpc .lobbyFree) hist ∧
      .rpc .lobbyFree ∉ since (.rpc .lobbyFree) hist :=
  ⟨fun h => ⟨⟨h.game, h.free⟩, h.gamedb, h.lobby⟩, fun h => ⟨h.1.1, h.1.2, h.2.1, h.2.2⟩⟩

instance (hist : List Act) : Decidable (StaysDead hist) :=
  decidable_of_iff _ (staysDead_iff hist).symm

/-- Only the milestones matter. -/
theorem staysDead_life {d : Desk} (h : StaysDead d.life.acts) : StaysDead d.hist where
  game := fun hm => h.game ((mem_since_filter rfl rfl _).2 hm)
  free := fun hm => h.free ((mem_since_filter rfl rfl _).2 hm)
  gamedb := fun hm => h.gamedb ((mem_since_filter rfl rfl _).2 hm)
  lobby := fun hm => h.lobby ((mem_since_filter rfl rfl _).2 hm)

/-- A new entry that uses nothing that is gone. -/
theorem StaysDead.cons {a : Act} {acts : List Act} (h : StaysDead acts)
    (hmark : a = .mark .doGame ∨ a = .mark .freeDesk → .mark .freeDesk ∉ acts)
    (hrpc : a = .rpc .freeDesk ∨ a = .rpc .lobbyFree → .rpc .lobbyFree ∉ acts) :
    StaysDead (a :: acts) := by
  refine ⟨fun hm => ?_, fun hm => ?_, fun hm => ?_, fun hm => ?_⟩
  · rcases mem_since_cons.1 hm with ⟨hb, rfl⟩ | hm
    · exact hmark (Or.inl rfl) hb
    · exact h.game hm
  · rcases mem_since_cons.1 hm with ⟨hb, rfl⟩ | hm
    · exact hmark (Or.inr rfl) hb
    · exact h.free hm
  · rcases mem_since_cons.1 hm with ⟨hb, rfl⟩ | hm
    · exact hrpc (Or.inl rfl) hb
    · exact h.gamedb hm
  · rcases mem_since_cons.1 hm with ⟨hb, rfl⟩ | hm
    · exact hrpc (Or.inr rfl) hb
    · exact h.lobby hm

/-! ### Tickets -/

/-- The coroutine walks, and will free the desk afterwards. -/
def Pc.willFree (pc : Pc) : Bool :=
  match pc.walk? with
  | some (w, _) => match w.k with | .free _ => true | _ => false
  | none => false

/-- `new_desk` is on its way to the barrier `ready`, or waits on it. -/
def Pc.parkedAt (d : Desk) : Pc → Bool
  | .monitor => true
  | .ready => d.sync.waiting == some .ready
  | _ => false

/-- **`new_desk` is parked.** -/
def Parked (d : Desk) (l : List Pc) : Prop := ∃ pc ∈ l, pc.parkedAt d = true

instance (d : Desk) (l : List Pc) : Decidable (Parked d l) :=
  inferInstanceAs (Decidable (∃ pc ∈ l, _))

/-- How often `free_desk` has begun. -/
def frees (acts : List Act) : ℕ := acts.count (.mark .freeDesk)

/-- How often the lobby has taken the id of the desk back. -/
def lobbyFrees (acts : List Act) : ℕ := acts.count (.rpc .lobbyFree)

/-- **There is at most one ticket**, and every run of `free_desk` gives the id back once. -/
structure FreedInv (d : Desk) (l : List Pc) : Prop where
  parked : Parked d l → frees d.life.acts + l.countP Pc.willFree ≤ d.life.dismissing.toNat
  loose : ¬ Parked d l →
    frees d.life.acts + l.countP Pc.willFree + l.countP Pc.newDesk ≤ 1
  freeing : l.countP Pc.freeing + lobbyFrees d.life.acts ≤ frees d.life.acts
  dead : StaysDead d.life.acts

theorem FreedInv.frees_le {d : Desk} {l : List Pc} (h : FreedInv d l) : frees d.life.acts ≤ 1 := by
  by_cases hp : Parked d l
  · have := h.parked hp
    have := Bool.toNat_le d.life.dismissing
    omega
  · have := h.loose hp
    omega

/-- **The condition**: nobody dismisses a desk that is being dismissed or whose barrier is
released, and the master does not start a game on a desk that is being dismissed. -/
def DismissedOnce (s : Sys) (j : Job) : Prop :=
  (dismisses s.shared j = true → s.shared.dismissing = false ∧ Parked s.shared (pcs s)) ∧
  (releases s.shared j = true → s.shared.dismissing = false)

instance (s : Sys) (j : Job) : Decidable (DismissedOnce s j) :=
  inferInstanceAs (Decidable ((_ → _) ∧ (_ → _)))

/-! ### What keeps `new_desk` parked -/

theorem parked_append (d : Desk) (l l' : List Pc) :
    Parked d (l ++ l') ↔ Parked d l ∨ Parked d l' := by
  simp only [Parked, List.mem_append, or_and_right, exists_or]

theorem not_parked_of_not_newDesk {d : Desk} {l : List Pc} (h : ∀ pc ∈ l, pc.newDesk = false) :
    ¬ Parked d l := by
  rintro ⟨pc, hpc, hat⟩
  have := h pc hpc
  cases pc <;> simp_all [Pc.newDesk, Pc.parkedAt]

theorem not_parkedAt_of_playing {d : Desk} {pc : Pc} (h : pc.playing = true) :
    ¬ pc.parkedAt d = true := by
  cases pc with
  | monitor => simp [Pc.playing] at h
  | ready => simp [Pc.playing] at h
  | _ => simp [Pc.parkedAt]

/-- A released barrier lets `new_desk` run. -/
theorem not_parkedAt_of_enabled {d : Desk} {inp : Inp} {pc : Pc} (hm : pc ≠ .monitor)
    (h : pc.enabled d inp = true) : ¬ pc.parkedAt d = true := by
  cases pc with
  | monitor => exact absurd rfl hm
  | ready => simpa [Pc.parkedAt, Pc.enabled] using h
  | _ => simp [Pc.parkedAt]

theorem parked_waiting {d d' : Desk} (h : d'.life.waiting = d.life.waiting) (l : List Pc) :
    Parked d' l ↔ Parked d l := by
  have hpc : ∀ pc : Pc, pc.parkedAt d' = pc.parkedAt d := by
    intro pc
    have hw : d'.sync.waiting = d.sync.waiting := h
    cases pc <;> simp [Pc.parkedAt, hw]
  simp only [Parked, hpc]

theorem countP_zero {p : Pc → Bool} {l : List Pc} (h : ∀ pc ∈ l, p pc = false) :
    l.countP p = 0 := by
  rw [List.countP_eq_zero]
  intro pc hpc
  simp [h pc hpc]

theorem willFree_of_walk {pc : Pc} {w : Walk} {st : Stage} (h : pc.walk? = some (w, st)) :
    pc.willFree = match w.k with | .free _ => true | _ => false := by
  simp only [Pc.willFree, h]

theorem willFree_of_freeing {pc : Pc} (h : pc.freeing = true) : pc.willFree = false := by
  cases pc <;> simp_all [Pc.freeing, Pc.willFree, Pc.walk?]

theorem willFree_of_newDesk {pc : Pc} (h : pc.newDesk = true) :
    pc.willFree = false ∧ pc.freeing = false := by
  cases pc <;> simp_all [Pc.newDesk, Pc.willFree, Pc.walk?, Pc.freeing]

/-- The coroutine holds no ticket. -/
def Pc.idle (pc : Pc) : Prop := pc.newDesk = false ∧ pc.freeing = false ∧ pc.willFree = false

theorem calm_cases {pc : Pc} (h : pc.calm = true) : pc.idle := by
  simp only [Pc.calm, Bool.and_eq_true, Bool.not_eq_true'] at h
  refine ⟨h.1.1, h.1.2, ?_⟩
  have hw : pc.walk? = none := by simpa using h.2
  simp [Pc.willFree, hw]

/-! ### One piece of work -/

/-- A coroutine that is not `new_desk` passes its ticket on. -/
theorem FreedInv.pass {d d' : Desk} {a a' rest : List Pc} (h : FreedInv d (a ++ rest))
    (ha : ∀ pc ∈ a, pc.newDesk = false) (ha' : ∀ pc ∈ a', pc.newDesk = false)
    (hw : d'.life.waiting = d.life.waiting) (hd : d'.life.dismissing = d.life.dismissing)
    (htickets : frees d'.life.acts + a'.countP Pc.willFree
      ≤ frees d.life.acts + a.countP Pc.willFree)
    (hfreeing : a'.countP Pc.freeing + lobbyFrees d'.life.acts + frees d.life.acts
      ≤ a.countP Pc.freeing + lobbyFrees d.life.acts + frees d'.life.acts)
    (hdead : StaysDead d'.life.acts) : FreedInv d' (a' ++ rest) := by
  have hparked : Parked d' (a' ++ rest) ↔ Parked d (a ++ rest) := by
    rw [parked_append, parked_append, parked_waiting hw rest]
    simp [not_parked_of_not_newDesk ha, not_parked_of_not_newDesk ha']
  have hN := countP_zero ha
  have hN' := countP_zero ha'
  refine ⟨fun hp => ?_, fun hp => ?_, ?_, hdead⟩
  · have := h.parked (hparked.1 hp)
    rw [List.countP_append] at this ⊢
    rw [hd]
    omega
  · have := h.loose fun hp' => hp (hparked.2 hp')
    simp only [List.countP_append] at this ⊢
    omega
  · have := h.freeing
    rw [List.countP_append] at this ⊢
    omega

/-- `free_desk` begins, with the ticket of the coroutine that begins it. -/
theorem FreedInv.free {d d₁ : Desk} {a rest : List Pc} (r : Ret) (h : FreedInv d (a ++ rest))
    (ha : ∀ pc ∈ a, pc.newDesk = false) (hl : d₁.life = d.life)
    (htickets : 1 ≤ a.countP Pc.willFree) (hfree : a.countP Pc.freeing = 0) :
    FreedInv (freeDesk d₁ r).d ((freeDesk d₁ r).pcs ++ rest) := by
  obtain ⟨d', pc, hf, hpc, hl'⟩ := freeDesk_cases d₁ r
  rw [hl] at hl'
  have hnone : frees d.life.acts = 0 := by
    by_cases hp : Parked d (a ++ rest)
    · have := h.parked hp
      have := Bool.toNat_le d.life.dismissing
      rw [List.countP_append] at *
      omega
    · have := h.loose hp
      rw [List.countP_append] at *
      omega
  have hF : frees d'.life.acts = frees d.life.acts + 1 := by rw [hl']; simp [frees]
  have hL : lobbyFrees d'.life.acts = lobbyFrees d.life.acts := by rw [hl']; simp [lobbyFrees]
  rw [hf, Out.d_wait, Out.pcs_wait]
  refine h.pass ha ?_ (by rw [hl']) (by rw [hl']) ?_ ?_ ?_
  · simpa using newDesk_of_freeing hpc
  · rw [List.countP_singleton, willFree_of_freeing hpc, hF]
    simp only [Bool.false_eq_true, if_false]
    omega
  · rw [List.countP_singleton, hpc, hF, hL, hfree]
    simp only [if_true]
    omega
  · rw [hl']
    refine h.dead.cons (fun _ => ?_) (by simp)
    exact List.count_eq_zero.1 hnone

/-- A coroutine without a ticket that leaves the life of the desk alone. -/
theorem FreedInv.calm {d : Desk} {o : Out} {a rest : List Pc} (h : FreedInv d (a ++ rest))
    (ha : ∀ pc ∈ a, pc.idle) (ho : ∀ pc ∈ o.pcs, pc.idle) (hl : o.d.life = d.life) :
    FreedInv o.d (o.pcs ++ rest) := by
  have hW := countP_zero fun pc hpc => (ha pc hpc).2.2
  have hG := countP_zero fun pc hpc => (ha pc hpc).2.1
  have hW' := countP_zero fun pc hpc => (ho pc hpc).2.2
  have hG' := countP_zero fun pc hpc => (ho pc hpc).2.1
  refine h.pass (fun pc hpc => (ha pc hpc).1) (fun pc hpc => (ho pc hpc).1)
    (by rw [hl]) (by rw [hl]) ?_ ?_ ?_
  · rw [hl, hW, hW']
  · rw [hl, hG, hG']
  · rw [hl]; exact h.dead

/-- The barrier is released. -/
theorem FreedInv.woken {d : Desk} {o : Out} {a rest : List Pc} (h : FreedInv d (a ++ rest))
    (hone : OneNewDesk d (a ++ rest)) (ha : ∀ pc ∈ a, pc.calm = true)
    (ho : ∀ pc ∈ o.pcs, pc.calm = true) (hl : o.d.life = { d.life with waiting := none })
    (hR : d.life.waiting = some .ready → d.life.dismissing = false) :
    FreedInv o.d (o.pcs ++ rest) := by
  have hW := countP_zero fun pc hpc => (calm_cases (ha pc hpc)).2.2
  have hG := countP_zero fun pc hpc => (calm_cases (ha pc hpc)).2.1
  have hN := countP_zero fun pc hpc => (calm_cases (ha pc hpc)).1
  have hW' := countP_zero fun pc hpc => (calm_cases (ho pc hpc)).2.2
  have hG' := countP_zero fun pc hpc => (calm_cases (ho pc hpc)).2.1
  have hN' := countP_zero fun pc hpc => (calm_cases (ho pc hpc)).1
  have hnp' : ¬ Parked o.d o.pcs := not_parked_of_not_newDesk fun pc hpc =>
    (calm_cases (ho pc hpc)).1
  have hacts : o.d.life.acts = d.life.acts := by rw [hl]
  have hdis : o.d.life.dismissing = d.life.dismissing := by rw [hl]
  refine ⟨fun hp => ?_, fun hp => ?_, ?_, by rw [hacts]; exact h.dead⟩
  · -- only the way to the barrier is left
    have hmon : Parked d (a ++ rest) := by
      obtain ⟨pc, hpc, hat⟩ := ((parked_append _ _ _).1 hp).resolve_left hnp'
      have hwait : o.d.sync.waiting = none := congrArg Life.waiting hl
      cases pc <;> simp [Pc.parkedAt, hwait] at hat
      exact ⟨.monitor, List.mem_append_right _ hpc, rfl⟩
    have := h.parked hmon
    rw [List.countP_append] at this ⊢
    rw [hacts, hdis]
    omega
  · by_cases hold : Parked d (a ++ rest)
    · have h₀ := h.parked hold
      have h₁ := hone.one
      have hready : d.life.waiting = some .ready := by
        obtain ⟨pc, hpc, hat⟩ := hold
        cases pc <;> simp [Pc.parkedAt] at hat
        · refine absurd ((parked_append _ _ _).2 (Or.inr ⟨.monitor, ?_, rfl⟩)) hp
          refine (List.mem_append.1 hpc).resolve_left fun hm => ?_
          simpa [Pc.newDesk] using (calm_cases (ha _ hm)).1
        · exact hat
      rw [hR hready] at h₀
      simp only [List.countP_append, Bool.toNat_false] at h₀ h₁ ⊢
      rw [hacts]
      omega
    · have := h.loose hold
      simp only [List.countP_append] at this ⊢
      rw [hacts]
      omega
  · have := h.freeing
    rw [List.countP_append] at this ⊢
    rw [hacts]
    omega

/-- The desk is dismissed, which takes a new ticket. -/
theorem FreedInv.dismissed {d : Desk} {o : Out} {a rest : List Pc} (h : FreedInv d (a ++ rest))
    (ha : ∀ pc ∈ a, pc.calm = true) (hp : Parked d (a ++ rest))
    (hdis : d.life.dismissing = false) (he : Ending { d.life with dismissing := true } o) :
    FreedInv o.d (o.pcs ++ rest) := by
  have hW := countP_zero fun pc hpc => (calm_cases (ha pc hpc)).2.2
  have hG := countP_zero fun pc hpc => (calm_cases (ha pc hpc)).2.1
  have hrest : Parked d rest :=
    ((parked_append _ _ _).1 hp).resolve_left
      (not_parked_of_not_newDesk fun pc hpc => (calm_cases (ha pc hpc)).1)
  have h₀ := h.parked hp
  have h₁ := h.freeing
  rw [List.countP_append] at h₀ h₁
  rw [hdis, Bool.toNat_false] at h₀
  have hfrees : frees d.life.acts = 0 := by omega
  -- the new desk is parked, and it is being dismissed
  have key : ∀ (d' : Desk) (a' : List Pc), d'.life.waiting = d.life.waiting →
      d'.life.dismissing = true → frees d'.life.acts + a'.countP Pc.willFree ≤ 1 →
      a'.countP Pc.freeing + lobbyFrees d'.life.acts ≤ lobbyFrees d.life.acts + frees d'.life.acts →
      StaysDead d'.life.acts → FreedInv d' (a' ++ rest) := by
    intro d' a' hw hd hF hL hdead
    have hp' : Parked d' (a' ++ rest) :=
      (parked_append _ _ _).2 (Or.inr ((parked_waiting hw rest).2 hrest))
    refine ⟨fun _ => ?_, fun hn => absurd hp' hn, ?_, hdead⟩
    · rw [hd, List.countP_append]
      simp only [Bool.toNat_true]
      omega
    · rw [List.countP_append]
      omega
  cases he with
  | @raise d₁ r hl =>
      have hacts : d₁.life.acts = d.life.acts := by rw [hl]
      refine key d₁ [] (by rw [hl]) (by rw [hl]) ?_ ?_ ?_
      · rw [hacts, List.countP_nil]; omega
      · rw [hacts, List.countP_nil]; omega
      · rw [hacts]; exact h.dead
  | @free d₁ r hl =>
      obtain ⟨d', pc, hf, hpc, hl'⟩ := freeDesk_cases d₁ r
      have hacts : d'.life.acts = .mark .freeDesk :: d.life.acts := by rw [hl', hl]
      have hF : frees d'.life.acts = frees d.life.acts + 1 := by rw [hacts]; simp [frees]
      have hL : lobbyFrees d'.life.acts = lobbyFrees d.life.acts := by
        rw [hacts]; simp [lobbyFrees]
      rw [hf, Out.d_wait, Out.pcs_wait]
      refine key d' [pc] (by rw [hl', hl]) (by rw [hl', hl]) ?_ ?_ ?_
      · rw [List.countP_singleton, willFree_of_freeing hpc, hF, hfrees]
        simp
      · rw [List.countP_singleton, hpc, hF, hL]
        simp only [if_true]
        omega
      · rw [hacts]
        exact h.dead.cons (fun _ => List.count_eq_zero.1 hfrees) (by simp)
  | @back d₁ r hl =>
      obtain ⟨pc, w, st, hs, hpc, hk⟩ := startWalk_cases d₁ none (.free r)
      have hacts : d₁.life.acts = d.life.acts := by rw [hl]
      rw [hs, Out.d_wait, Out.pcs_wait]
      refine key d₁ [pc] (by rw [hl]) (by rw [hl]) ?_ ?_ ?_
      · rw [List.countP_singleton, hacts]
        split <;> omega
      · rw [List.countP_singleton, freeing_of_walk hpc, hacts]
        simp
      · rw [hacts]; exact h.dead

/-- **A request keeps the tickets**, under the condition. -/
theorem FreedInv.request {s : Sys} {j : Job} {inp : Inp} {rest : List Pc}
    (hp : (pcs s).Perm (j.pcs ++ rest)) (hone : OneNewDesk s.shared (j.pcs ++ rest))
    (hC : DismissedOnce s j) (hcalm : ∀ pc ∈ j.pcs, pc.calm = true)
    (h : FreedInv s.shared (j.pcs ++ rest)) :
    FreedInv (j.out s.shared inp).d ((j.out s.shared inp).pcs ++ rest) := by
  have he := life_job s.shared inp hcalm
  generalize j.out s.shared inp = o at he
  cases he with
  | calm hl hpc =>
      exact h.calm (fun pc hm => calm_cases (hcalm pc hm)) (fun pc hm => calm_cases (hpc pc hm)) hl
  | woken hl hR hpc => exact h.woken hone hcalm hpc hl fun hw => hC.2 (hR hw)
  | @walk d₁ userid u k hl =>
      obtain ⟨pc, w, st, hs, hpc, hk⟩ := startWalk_cases d₁ userid (.standup u k)
      rw [hs]
      refine h.calm (fun pc hm => calm_cases (hcalm pc hm)) ?_ hl
      simp [Pc.idle, newDesk_of_walk hpc, freeing_of_walk hpc, willFree_of_walk hpc, hk]
  | dismissed hD he =>
      obtain ⟨hd, hpark⟩ := hC.1 hD
      refine h.dismissed hcalm ?_ hd he
      obtain ⟨pc, hpc, hat⟩ := hpark
      exact ⟨pc, hp.mem_iff.1 hpc, hat⟩

/-- A call that frees nothing. -/
theorem executed_acts (d : Desk) (inp : Inp) (pc : Pc) :
    ∃ new, (executed d inp pc).life = { d.life with acts := new ++ d.life.acts } ∧
      (new = [] ∨ ∃ r, pc.rpc d inp = some r ∧ new = [.rpc r]) := by
  unfold executed
  cases hr : pc.rpc d inp with
  | none => exact ⟨[], rfl, Or.inl rfl⟩
  | some r =>
      by_cases hlife : Act.life (.rpc r) = true
      · refine ⟨[.rpc r], ?_, Or.inr ⟨r, rfl, rfl⟩⟩
        simp [Desk.life, Desk.called, Desk.dismissing, hlife]
      · exact ⟨[], life_called d (by simpa using hlife), Or.inl rfl⟩

/-- **A walk keeps its ticket**, or begins `free_desk` with it. -/
theorem FreedInv.walk {d : Desk} {inp : Inp} {pc : Pc} {x : Walk × Stage} {rest : List Pc}
    (hx : pc.walk? = some x) (h : FreedInv d ([pc] ++ rest)) :
    FreedInv (segment (executed d inp pc) inp pc).d
      ((segment (executed d inp pc) inp pc).pcs ++ rest) := by
  have hnew : ∀ p ∈ [pc], p.newDesk = false := by simpa using newDesk_of_walk hx
  -- the call of a walk frees nothing
  have he : FreedInv (executed d inp pc) ([pc] ++ rest) := by
    obtain ⟨new, hl, hnew'⟩ := executed_acts d inp pc
    rcases hnew' with rfl | ⟨r, hr, rfl⟩
    · refine h.pass hnew hnew ?_ ?_ ?_ ?_ ?_ <;> rw [hl] <;> first | rfl | exact le_rfl |
        exact h.dead
    · have hr' : r ≠ .freeDesk ∧ r ≠ .lobbyFree := by
        cases pc <;> simp_all [Pc.walk?, Pc.rpc] <;> subst hr <;> simp
      refine h.pass hnew hnew ?_ ?_ ?_ ?_ ?_ <;> rw [hl]
      · simp [frees]
      · simp [frees, lobbyFrees, hr'.2]
      · exact h.dead.cons (by simp) (by simp [hr'.1, hr'.2])
  generalize executed d inp pc = e at he
  obtain ⟨w, st⟩ := x
  rcases segment_walk e inp hx with ⟨pc', w', st', hs, hpc', hk⟩ | ⟨-, hs⟩ | ⟨r, hs⟩
  · rw [hs, Out.d_wait, Out.pcs_wait]
    have hwill : pc'.willFree = pc.willFree := by
      rw [willFree_of_walk hpc', willFree_of_walk hx, hk]
    refine he.pass hnew (by simpa using newDesk_of_walk hpc') rfl rfl ?_ ?_ he.dead
    · rw [List.countP_singleton, List.countP_singleton, hwill]
    · rw [List.countP_singleton, List.countP_singleton, freeing_of_walk hpc', freeing_of_walk hx]
  · rw [hs]
    cases hk : w.k with
    | standup u k =>
        have ht := (tail_actstandup (U := True) (replaceCosts e w.costs)
          ((replaceCosts e w.costs).objs u).seat k trivial).calm
        refine he.calm ?_ (fun pc hm => calm_cases (ht.2 pc hm)) ht.1
        simp [Pc.idle, newDesk_of_walk hx, freeing_of_walk hx, willFree_of_walk hx, hk]
    | free r =>
        refine he.free r hnew rfl ?_ ?_
        · simp [willFree_of_walk hx, hk]
        · simp [freeing_of_walk hx]
  · -- the ticket of a walk that is cut off is lost
    rw [hs, Out.d_ret, Out.pcs_ret]
    refine he.pass hnew (fun p hp => absurd hp List.not_mem_nil) rfl rfl ?_ ?_ he.dead
    · exact Nat.le_add_right _ _
    · rw [List.countP_singleton, freeing_of_walk hx]
      exact le_rfl

/-- **`free_desk` gives the id back once.** -/
theorem FreedInv.freeing_segment {d : Desk} {inp : Inp} {pc : Pc} {rest : List Pc}
    (hpc : pc.freeing = true) (h : FreedInv d ([pc] ++ rest)) :
    FreedInv (segment (executed d inp pc) inp pc).d
      ((segment (executed d inp pc) inp pc).pcs ++ rest) := by
  have hnew : ∀ p ∈ [pc], p.newDesk = false := by simpa using newDesk_of_freeing hpc
  have hW : [pc].countP Pc.willFree = 0 := by simp [willFree_of_freeing hpc]
  have hG : [pc].countP Pc.freeing = 1 := by simp [hpc]
  -- the lobby has not taken the id back: this coroutine will give it back
  have hlobby : .rpc .lobbyFree ∉ d.life.acts := by
    refine List.count_eq_zero.1 ?_
    have h₁ := h.freeing
    have h₂ := h.frees_le
    rw [List.countP_append, hG, lobbyFrees] at h₁
    omega
  obtain ⟨new, hl, hnew'⟩ := executed_acts d inp pc
  have hdead : StaysDead (executed d inp pc).life.acts := by
    rw [hl]
    rcases hnew' with rfl | ⟨r, -, rfl⟩
    · exact h.dead
    · exact h.dead.cons (by simp) fun _ => hlobby
  have hF : frees (executed d inp pc).life.acts = frees d.life.acts := by
    rw [hl]
    rcases hnew' with rfl | ⟨r, -, rfl⟩
    · rfl
    · simp [frees]
  have hwait : (executed d inp pc).life.waiting = d.life.waiting := by rw [hl]
  have hdis : (executed d inp pc).life.dismissing = d.life.dismissing := by rw [hl]
  rcases segment_freeing (executed d inp pc) inp hpc with
    ⟨d', pc', hs, hl', hpc', hne⟩ | ⟨r, d', rfl, hs, hl'⟩
  · have hL : lobbyFrees (executed d inp pc).life.acts = lobbyFrees d.life.acts := by
      rw [hl]
      rcases hnew' with rfl | ⟨r, hr, rfl⟩
      · rfl
      · have : r ≠ .lobbyFree := by
          cases pc <;> simp_all [Pc.freeing, Pc.rpc] <;> subst hr <;> simp
        simp [lobbyFrees, this]
    rw [hs, Out.d_wait, Out.pcs_wait]
    refine h.pass hnew (by simpa using newDesk_of_freeing hpc') (by rw [hl', hwait])
      (by rw [hl', hdis]) ?_ ?_ (by rw [hl']; exact hdead)
    · rw [hl', hF, hW, List.countP_singleton, willFree_of_freeing hpc']
      simp
    · rw [hl', hF, hL, hG, List.countP_singleton, hpc']
      simp
  · rw [hs, Out.d_ret, Out.pcs_ret]
    refine h.pass hnew (by simp) (by rw [hl', hwait]) (by rw [hl', hdis]) ?_ ?_
      (by rw [hl']; exact hdead)
    · rw [hl', hF, hW, List.countP_nil]
    · rw [hl', hF, hG, List.countP_nil, hl]
      rcases hnew' with rfl | ⟨r', -, rfl⟩
      · simp
      · simp only [lobbyFrees, List.singleton_append, List.count_cons]
        split <;> omega

/-- **`new_desk` keeps its ticket**, or begins `free_desk` with it. -/
theorem FreedInv.newDesk {d : Desk} {inp : Inp} {pc : Pc} {rest : List Pc}
    (hnew : pc.newDesk = true) (hen : pc.enabled d inp = true) (hone : OneNewDesk d ([pc] ++ rest))
    (h : FreedInv d ([pc] ++ rest)) :
    FreedInv (segment (executed d inp pc) inp pc).d
      ((segment (executed d inp pc) inp pc).pcs ++ rest) := by
  have ht := hone.timely pc (by simp)
  have hlife := life_executed d inp (Or.inr hnew)
  have hcount : (executed d inp pc).count = d.count := congrArg Life.count hlife
  have hwait : (executed d inp pc).sync.waiting = d.sync.waiting := congrArg Life.waiting hlife
  have hN : rest.countP Pc.newDesk = 0 := by
    have := hone.one
    rw [List.countP_append, List.countP_singleton, if_pos hnew] at this
    omega
  have hrest : ∀ d' : Desk, ¬ Parked d' rest := fun d' =>
    not_parked_of_not_newDesk fun p hp => by simpa using List.countP_eq_zero.1 hN p hp
  obtain ⟨hwill, hfreeing⟩ := willFree_of_newDesk hnew
  have hG := h.freeing
  rw [List.countP_append, List.countP_singleton, hfreeing] at hG
  by_cases hm : pc = .monitor
  · subst hm
    have hp := h.parked ⟨.monitor, by simp, rfl⟩
    rw [List.countP_append, List.countP_singleton, hwill] at hp
    obtain ⟨d', hs, hl⟩ := segment_monitor (executed d inp .monitor) inp (hwait.trans ht.2)
    rw [hlife] at hl
    rw [hs, Out.d_wait, Out.pcs_wait]
    have hready : Pc.parkedAt d' .ready = true := by
      simp only [Pc.parkedAt, beq_iff_eq]
      exact congrArg Life.waiting hl
    refine ⟨fun _ => ?_, fun hn => absurd ⟨.ready, by simp, hready⟩ hn,
      ?_, by rw [hl]; exact h.dead⟩
    · rw [List.countP_append, List.countP_singleton, hl]
      simpa [Pc.willFree, Pc.walk?] using hp
    · rw [List.countP_append, List.countP_singleton, hl]
      simpa [Pc.freeing] using hG
  · -- past the barrier `new_desk` holds the only ticket
    have hloose : ¬ Parked d ([pc] ++ rest) := by
      rw [parked_append]
      rintro (⟨p, hp, hat⟩ | hp)
      · obtain rfl := List.mem_singleton.1 hp
        exact not_parkedAt_of_enabled hm hen hat
      · exact hrest d hp
    have h₁ := h.loose hloose
    rw [List.countP_append, List.countP_append, List.countP_singleton, List.countP_singleton,
      if_pos hnew, hwill] at h₁
    simp only [Bool.false_eq_true, if_false] at h₁ hG
    have hfrees : frees d.life.acts = 0 := by omega
    have hno : .mark .freeDesk ∉ d.life.acts := List.count_eq_zero.1 hfrees
    -- what is left to show when `new_desk` goes on, and when it has finished
    have next : ∀ (d' : Desk) (pc' : Pc), pc'.playing = true →
      frees d'.life.acts = frees d.life.acts →
        lobbyFrees d'.life.acts = lobbyFrees d.life.acts → StaysDead d'.life.acts →
        FreedInv d' ([pc'] ++ rest) := by
      intro d' pc' hpc' hF hL hdead
      obtain ⟨hw', hf'⟩ := willFree_of_newDesk (playing_newDesk hpc')
      refine ⟨fun hp => ?_, fun _ => ?_, ?_, hdead⟩
      · rcases (parked_append _ _ _).1 hp with ⟨p, hp, hat⟩ | hp
        · obtain rfl := List.mem_singleton.1 hp
          exact absurd hat (not_parkedAt_of_playing hpc')
        · exact absurd hp (hrest d')
      · rw [List.countP_append, List.countP_append, List.countP_singleton, List.countP_singleton,
          if_pos (playing_newDesk hpc'), hw', hF]
        simp only [Bool.false_eq_true, if_false]
        omega
      · rw [List.countP_append, List.countP_singleton, hf', hF, hL]
        simp only [Bool.false_eq_true, if_false]
        omega
    by_cases hr : pc = .ready
    · subst hr
      obtain ⟨d', pc', hs, hpc', -, -, hacts⟩ :=
        segment_ready (executed d inp .ready) inp (hcount.trans ht)
      rw [hlife] at hacts
      rw [hs, Out.d_wait, Out.pcs_wait]
      refine next d' pc' hpc' ?_ ?_ ?_
      · rw [hacts]; simp [frees]
      · rw [hacts]; simp [lobbyFrees]
      · rw [hacts]; exact h.dead.cons (fun _ => hno) (by simp)
    · have hplay := playing_of_newDesk hnew hm hr
      have hon := onward_segment (executed d inp pc) inp hplay
      rw [hlife] at hon
      have hpos := count_of_playing hplay ht
      generalize segment (executed d inp pc) inp pc = o at hon
      cases hon with
      | @next d' pc' hsame hpc' =>
          rw [Out.d_wait, Out.pcs_wait]
          refine next d' pc' hpc' ?_ ?_ ?_ <;> rw [hsame.acts]
          exact h.dead
      | @stop d' r hsame =>
          rw [Out.d_ret, Out.pcs_ret]
          refine ⟨fun hp => absurd hp (hrest d'), fun _ => ?_, ?_, by rw [hsame.acts]; exact h.dead⟩
          · rw [List.nil_append, hsame.acts]; omega
          · rw [List.nil_append, hsame.acts]; omega
      | @free d₁ hsame =>
          obtain ⟨d', pc', hf, hpc', hl'⟩ := freeDesk_cases d₁ .nil
          have hacts : d'.life.acts = .mark .freeDesk :: d.life.acts := by rw [hl', hsame.acts]
          have hF : frees d'.life.acts = 1 := by rw [hacts]; simpa [frees] using hfrees
          have hL : lobbyFrees d'.life.acts = lobbyFrees d.life.acts := by
            rw [hacts]; simp [lobbyFrees]
          rw [hf, Out.d_wait, Out.pcs_wait]
          refine ⟨fun hp => ?_, fun _ => ?_, ?_, ?_⟩
          · rcases (parked_append _ _ _).1 hp with hp | hp
            · exact absurd hp (not_parked_of_not_newDesk (by simpa using newDesk_of_freeing hpc'))
            · exact absurd hp (hrest d')
          · rw [List.countP_append, List.countP_append, List.countP_singleton,
              List.countP_singleton,
              willFree_of_freeing hpc', newDesk_of_freeing hpc', hF]
            simp only [Bool.false_eq_true, if_false]
            omega
          · rw [List.countP_append, List.countP_singleton, hpc', hF, hL]
            simp only [if_true]
            omega
          · rw [hacts]
            exact h.dead.cons (fun _ => hno) (by simp)
      | back hsame hz => exact absurd hz (by simp only [Desk.life]; omega)

/-! ### Runs -/

theorem FreedInv.job {s : Sys} {j : Job} {inp : Inp} {rest : List Pc}
    (hp : (pcs s).Perm (j.pcs ++ rest)) (hen : ∀ pc ∈ j.pcs, pc.enabled s.shared inp = true)
    (hone : OneNewDesk s.shared (pcs s)) (hC : DismissedOnce s j)
    (h : FreedInv s.shared (j.pcs ++ rest)) :
    FreedInv (j.out s.shared inp).d ((j.out s.shared inp).pcs ++ rest) := by
  have hone' : OneNewDesk s.shared (j.pcs ++ rest) :=
    ⟨hp.countP_eq Pc.newDesk ▸ hone.one, fun pc hpc => hone.timely pc (hp.mem_iff.2 hpc)⟩
  by_cases hcalm : ∀ pc ∈ j.pcs, pc.calm = true
  · exact h.request hp hone' hC hcalm
  · cases j with
    | req r => simp [Job.pcs] at hcalm
    | cmd u c => simp [Job.pcs] at hcalm
    | seg pc =>
        cases hx : pc.walk? with
        | some x => exact h.walk hx
        | none =>
            by_cases hfree : pc.freeing = true
            · exact h.freeing_segment hfree
            · have hnew : pc.newDesk = true := by
                by_contra hne
                simp [Job.pcs, Pc.calm, hne, hfree, hx] at hcalm
              exact h.newDesk hnew (hen pc (by simp [Job.pcs])) hone'

variable {id creater timelimit : ℕ} {pay : Pay} {s : Sys}

/-- There is at most one ticket along every run under the condition. -/
theorem freedInv_of_dismissedOnce
    (h : desk.Reach (Under DismissedOnce) (created id creater pay timelimit) s) :
    FreedInv s.shared (pcs s) := by
  refine desk_inv ?_ ?_ ?_ ?_ ?_ (h.and_inv fun s hs => one_newDesk hs)
  · intro d l l' hp hI
    have hparked : Parked d l' ↔ Parked d l := by simp only [Parked, hp.mem_iff]
    refine ⟨fun hp' => ?_, fun hp' => ?_, ?_, hI.dead⟩
    · rw [← hp.countP_eq]
      exact hI.parked (hparked.1 hp')
    · rw [← hp.countP_eq, ← hp.countP_eq]
      exact hI.loose fun h => hp' (hparked.2 h)
    · rw [← hp.countP_eq]
      exact hI.freeing
  · intro d l b q hI
    have hparked : Parked { d with csBusy := b, csQueue := q } l ↔ Parked d l :=
      parked_waiting rfl l
    exact ⟨fun hp => hI.parked (hparked.1 hp), fun hp => hI.loose fun h => hp (hparked.2 h),
      hI.freeing, hI.dead⟩
  · intro d l u c hI
    have hbegin : ∀ pc ∈ [Pc.begin u c], pc.newDesk = false := by simp [Pc.newDesk]
    exact hI.pass (a := []) (by simp) hbegin rfl rfl
      (by simp [Pc.willFree, Pc.walk?]) (by simp [Pc.freeing]) hI.dead
  · have hacts : (created id creater pay timelimit).shared.life.acts = [] := rfl
    refine ⟨fun _ => ?_, fun hn => absurd ⟨.monitor, by simp [pcs, created], rfl⟩ hn, ?_, ?_⟩
    · rw [hacts]
      simp [frees, pcs, created, Pc.willFree, Pc.walk?]
    · rw [hacts]
      simp [frees, lobbyFrees, pcs, created, Pc.freeing]
    · rw [hacts]
      exact ⟨by simp [since], by simp [since], by simp [since], by simp [since]⟩
  · rintro s e j inp rest ⟨hC, hone⟩ hj hp hen hI
    have hdis : DismissedOnce s j := by simpa [Under, hj] using hC
    exact hI.job hp hen hone hdis

/-- **A freed desk stays dead**, in every run in which it is dismissed at most once and not
started afterwards. -/
theorem staysDead_of_dismissedOnce
    (h : desk.Reach (Under DismissedOnce) (created id creater pay timelimit) s) :
    StaysDead s.shared.hist :=
  staysDead_life (freedInv_of_dismissedOnce h).dead

/-- The master dismisses the desk, and `free_desk` runs to its end. -/
def dismissed (during : List Ev) : List Ev :=
  allSit ++ [.call (.client 2 .ready) {}, .call (.client 1 .dismissApply) {}] ++ during ++
    List.replicate 16 (.resume 1 {})

/-- A desk that is dismissed before the game is freed once. -/
theorem staysDead_dismissed :
    ∃ s, desk.Reach (Under DismissedOnce) (created 100001 1 ⟨true, 3⟩ 30) s ∧
      .mark .freed ∈ s.shared.hist ∧ StaysDead s.shared.hist := by
  obtain ⟨s, hs, hp⟩ := Machine.exists_reach (dismissed [])
    (p := fun s => decide (.mark .freed ∈ s.shared.hist)) (C := Under DismissedOnce)
    (i := created 100001 1 ⟨true, 3⟩ 30) (M := desk) (by decide +kernel)
  exact ⟨s, hs, of_decide_eq_true hp, staysDead_of_dismissedOnce hs⟩

/-- **A `ready` that waits in `d.cs` behind the dismissal starts a game on a dead desk.** -/
theorem ready_wakes_freed_desk :
    ¬ ∀ (id creater timelimit : ℕ) (pay : Pay) (s : Sys),
      desk.Reach Always (created id creater pay timelimit) s → StaysDead s.shared.hist := by
  intro hall
  obtain ⟨s, hs, hp⟩ := Machine.exists_reach
    (dismissed [.call (.client 1 .ready) {}] ++ [.resume 1 {}, .resume 0 {}])
    (p := fun s => decide (¬ StaysDead s.shared.hist)) (C := Always)
    (i := created 100001 1 ⟨true, 3⟩ 30) (M := desk) (by decide +kernel)
  exact of_decide_eq_true hp (hall _ _ _ _ s hs)

end Halieutics
