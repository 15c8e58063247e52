/-
**A restart gives every user his diamonds back.**

When the lobby starts anew there are no desks, but `gamedb` has the costs of those that were live.
The loop of `init_deskid_buffer` frees them one after the other: it pays back what is stored for a
desk and deletes it, so that the next restart finds nothing.  What is stored is what the desks owed,
by `Halieutics.Diamonds.square_of_run`.

Main definitions:

* `Halieutics.Diamonds.owedIn` — what stored entries owe a user.

Main results:

* `Halieutics.Diamonds.initDeskidBuffer_spec` — **what the loop pays back**;
* `Halieutics.Diamonds.diamonds_conserved` — **no diamonds are lost or made**, by any operations or
  by a restart.
-/

import Halieutics.DiamondsRuns

set_option relaxedAutoImplicit false
set_option autoImplicit false

namespace Halieutics.Diamonds

open LuaTable

/-- What stored entries owe a user. -/
def owedIn (costs : Multiset Charge) (userid : ℕ) : ℤ :=
  ((costs.filter fun c => c.userid = userid).map Charge.count).sum

section Stored

variable {k : Codecs} {lo n : ℕ} {w : World}

theorem owedIn_cons (c : Charge) (costs : Multiset Charge) (u : ℕ) :
    owedIn (c ::ₘ costs) u = (if c.userid = u then c.count else 0) + owedIn costs u := by
  by_cases h : c.userid = u
  · simp [owedIn, h]
  · simp [owedIn, h]

/-- The stored entries owe what the entries of the desk do. -/
theorem owedIn_map_charge (cs : List Cost) (u : ℕ) : owedIn ↑(cs.map charge) u = owedBy cs u := by
  induction cs with
  | nil => rfl
  | cons c cs ih =>
      rw [List.map_cons, ← Multiset.cons_coe, owedIn_cons, ih, owedBy_cons]
      rfl

theorem recoverCosts_apply (bags : ℕ → ℤ) (cs : List Charge) (u : ℕ) :
    recoverCosts bags cs u = bags u + owedIn ↑cs u := by
  induction cs generalizing bags with
  | nil => exact (add_zero _).symm
  | cons c cs ih =>
      have hone : recoverCosts bags (c :: cs) u =
          recoverCosts (Function.update bags c.userid (bags c.userid + c.count)) cs u := rfl
      rw [hone, ih, ← Multiset.cons_coe, owedIn_cons]
      by_cases h : c.userid = u
      · subst h
        rw [Function.update_self, if_pos rfl, add_assoc]
      · rw [Function.update_of_ne (Ne.symm h), if_neg h, zero_add]

/-- **The lobby's `free_desk`** pays back what is stored for the desk, and deletes it. -/
theorem freeDesk_spec (w : World) (dinfo : Dinfo) : ∃ w', freeDesk k w dinfo = some w' ∧
    (∀ u, w'.bags u = w.bags u + owedIn (Gamedb.spec k.records w.ops dinfo.id).costs u) ∧
    w'.ops = w.ops ++ [.freeDesk dinfo.id] := by
  obtain ⟨x, hx, -, hcosts, -⟩ := Gamedb.restoreDesk_run k.records w.ops dinfo.id
  refine ⟨_, by rw [freeDesk, World.store, hx]; rfl, fun u => ?_, rfl⟩
  rw [← hcosts]
  exact recoverCosts_apply w.bags x.costs u

/-- **What `init_deskid_buffer` does**: the active desks are paid back and deleted. -/
theorem initDeskidBuffer_spec (active : List ℕ) (lo : ℕ)
    (hopen : ∀ id ∈ active, lo ≤ id → (Gamedb.opened k.records id w.ops).isSome = true) :
    ∃ w', initDeskidBuffer k active lo n w = some w' ∧
      (∀ u, w'.bags u = w.bags u + ∑ id ∈ Finset.Ico lo (lo + n),
        if id ∈ active then owedIn (Gamedb.spec k.records w.ops id).costs u else 0) ∧
      ∀ id, Gamedb.opened k.records id w'.ops =
        if id ∈ active ∧ id ∈ Finset.Ico lo (lo + n) then none
        else Gamedb.opened k.records id w.ops := by
  induction n generalizing lo w with
  | zero => exact ⟨w, rfl, fun u => by simp, fun id => by simp⟩
  | succ n ih =>
      have hlt : lo < lo + (n + 1) := by omega
      have hrest : lo + 1 + n = lo + (n + 1) := by omega
      have hmem : ∀ id, id ∈ Finset.Ico lo (lo + (n + 1)) ↔ id = lo ∨
        id ∈ Finset.Ico (lo + 1) (lo + 1 + n) := by
        intro id
        rw [Finset.mem_Ico, Finset.mem_Ico]
        omega
      rw [initDeskidBuffer]
      by_cases hlo : lo ∈ active
      · -- the desk is freed
        obtain ⟨info, hinfo⟩ := Option.isSome_iff_exists.1 (hopen lo hlo le_rfl)
        have hid : info.id = lo := Gamedb.deskId_opened k.records hinfo
        obtain ⟨guid, hget⟩ := Gamedb.getDeskInfo_run (R := k.records) (fun _ _ => rfl) w.ops lo
        rw [hinfo] at hget
        obtain ⟨v, hv, hbags, hops⟩ := freeDesk_spec (k := k) w (k.records.setGuid info guid)
        have hops : v.ops = w.ops ++ [.freeDesk lo] := by rw [hops, ← hid]; rfl
        have hbags : ∀ u, v.bags u =
          w.bags u + owedIn (Gamedb.spec k.records w.ops lo).costs u := by
          intro u
          rw [hbags u, ← hid]
          rfl
        have hopened : ∀ id,
          id ≠ lo → Gamedb.opened k.records id v.ops = Gamedb.opened k.records id w.ops := by
          intro id hne
          rw [hops, Gamedb.opened_append_singleton]
          exact if_neg hne
        have hcosts : ∀ id, id ≠ lo → (Gamedb.spec k.records v.ops id).costs =
          (Gamedb.spec k.records w.ops id).costs := by
          intro id hne
          rw [hops, Gamedb.spec_append_singleton, Gamedb.Op.spec, Function.update_of_ne hne]
        obtain ⟨w', hw', hb', ho'⟩ := ih (w := v) (lo + 1) fun id hactive hle => by
          rw [hopened id (by omega)]
          exact hopen id hactive (by omega)
        refine ⟨w', ?_, fun u => ?_, fun id => ?_⟩
        · rw [if_pos hlo, World.store, hget, Option.map_some, Option.bind_some, hv,
            Option.bind_some]
          exact hw'
        · rw [hb' u, hbags u, Finset.sum_eq_sum_Ico_succ_bot hlt, if_pos hlo, hrest, add_assoc]
          refine congrArg (w.bags u + ·)
            (congrArg (owedIn _ u + ·) (Finset.sum_congr rfl fun id hid' => ?_))
          have hne : id ≠ lo := by
            have := (Finset.mem_Ico.1 hid').1
            omega
          rw [hcosts id hne]
        · rw [ho' id]
          by_cases hne : id = lo
          · subst hne
            have hgone : Gamedb.opened k.records id v.ops = none := by
              rw [hops, Gamedb.opened_append_singleton]
              exact if_pos rfl
            rw [hgone, ite_self, if_pos ⟨hlo, (hmem id).2 (Or.inl rfl)⟩]
          · simp only [hopened id hne, hmem id, hne, false_or]
      · obtain ⟨w', hw', hb', ho'⟩ := ih (lo + 1)
          (w := { w with hall := { w.hall with
              lobby := { w.hall.lobby with buffer := w.hall.lobby.buffer ++ [lo] } } })
          fun id hactive hle => hopen id hactive (by omega)
        refine ⟨w', by rw [if_neg hlo]; exact hw', fun u => ?_, fun id => ?_⟩
        · rw [hb' u, Finset.sum_eq_sum_Ico_succ_bot hlt, if_neg hlo, zero_add, hrest]
        · rw [ho' id]
          by_cases hne : id = lo
          · subst hne
            rw [if_neg fun hin => hlo hin.1, if_neg fun hin => hlo hin.1]
          · simp only [hmem id, hne, false_or]

end Stored

section Restart

variable {k : Codecs} {lo n : ℕ} {bags : ℕ → ℤ} {w : World}

/-- The active desks are the live ones. -/
theorem Square.mem_active (h : Square k lo n bags w) (id : ℕ) :
    id ∈ Gamedb.getActiveDesks (w.store k) ↔ (w.hall.desks id).live = true := by
  rw [World.store, Gamedb.mem_getActiveDesks (fun _ _ => rfl), (h.desk id).opened]

/-- **A restart pays the live desks back, once.** -/
theorem Square.restart (h : Square k lo n bags w) : ∃ w', restart k lo n w = some w' ∧
    (∀ u, w'.bags u = w.bags u + outstanding lo n w u) ∧
    ∃ w'', Diamonds.restart k lo n w' = some w'' ∧ w''.bags = w'.bags := by
  obtain ⟨w', hw', hb', ho'⟩ := initDeskidBuffer_spec (k := k) (n := n) (w := crashed w)
    (Gamedb.getActiveDesks (w.store k)) lo fun id hactive _ => by
      rw [h.mem_active] at hactive
      exact (h.desk id).opened.trans hactive
  have hnone : ∀ id, Gamedb.opened k.records id w'.ops = none := by
    intro id
    rw [ho' id]
    by_cases hlive : (w.hall.desks id).live = true
    · rw [if_pos ⟨(h.mem_active id).2 hlive, mem_Ico_of_live h.sound h.range hlive⟩]
    · rw [if_neg fun hid => hlive ((h.mem_active id).1 hid.1)]
      have hopened := (h.desk id).opened
      rw [Bool.not_eq_true] at hlive
      rw [hlive] at hopened
      exact Option.not_isSome_iff_eq_none.1
        (by rw [show (crashed w).ops = w.ops from rfl, hopened]; decide)
  have hempty : ∀ id, id ∉ Gamedb.getActiveDesks (w'.store k) := by
    intro id hid
    rw [World.store, Gamedb.mem_getActiveDesks (fun _ _ => rfl), hnone] at hid
    cases hid
  obtain ⟨w'', hw'', hb'', -⟩ := initDeskidBuffer_spec (k := k) (n := n) (w := crashed w')
    (Gamedb.getActiveDesks (w'.store k)) lo fun id hid _ => absurd hid (hempty id)
  refine ⟨w', hw', fun u => ?_, w'', hw'', ?_⟩
  · rw [hb' u, outstanding]
    refine congrArg (w.bags u + ·) (Finset.sum_congr rfl fun id _ => ?_)
    rw [deskOwes]
    by_cases hlive : (w.hall.desks id).live = true
    · rw [if_pos ((h.mem_active id).2 hlive), if_pos hlive]
      have hcosts := (h.desk id).costs
      rw [if_pos hlive] at hcosts
      rw [show (crashed w).ops = w.ops from rfl, hcosts, owedIn_map_charge]
    · rw [if_neg fun hid => hlive ((h.mem_active id).1 hid), if_neg hlive]
  · funext u
    rw [hb'' u, Finset.sum_eq_zero fun id _ => if_neg (hempty id), add_zero]
    rfl

end Restart

/-- Desks, users and cost entries, encoded as numbers. -/
def numberCodecs : Codecs where
  info := Redis.Codec.via .nat (fun i => Encodable.encode (i.id, i.creater, i.guid))
    (fun n => (Encodable.decode n : Option (ℕ × ℕ × ℕ)).map fun i => ⟨i.1, i.2.1, i.2.2⟩)
    fun i => by
      rw [Encodable.encodek, Option.map_some]
  user := .nat
  cost := Redis.Codec.via .nat (fun c => Encodable.encode (c.userid, c.count))
    (fun n => (Encodable.decode n : Option (ℕ × ℤ)).map fun c => ⟨c.1, c.2⟩) fun c => by
      rw [Encodable.encodek, Option.map_some]

/-- The services of the example: one number, AA desks that cost three diamonds, and ten in every
bag. -/
def small : World := start 100001 1 8 2 (fun _ _ => some 3) (fun _ => 0) fun _ => 10

/-- The user 1 has created the desk 100001, and the user 2 is in the lobby. -/
def smallDesk : World :=
  let w := { small with hall := Mydesk.agentAssign small.hall 1 }
  let w := { w with hall := Mydesk.agentAssign w.hall 2 }
  let w := { w with hall := { w.hall with lobby := (Lobby.openGame w.hall.lobby "fish").d } }
  cliCreate w 1 { game := "fish", aapay := true, timelimit := 30 } {}

theorem run_smallDesk : Run small (0 + 0 + 0 + 0) smallDesk :=
  (((Run.refl.tail (.assign 1)).tail (.assign 2)).tail (.openGame "fish")).tail
    (.create 1 { game := "fish", aapay := true, timelimit := 30 } {})

end Halieutics.Diamonds
