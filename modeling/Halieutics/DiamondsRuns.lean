/-
**Diamonds over whole runs.**

The services of `Halieutics.Diamonds` run as those of `Halieutics.Mydesk` do, so the lobby knows
exactly the live desks.  An operation is about one desk; the books of this desk stay balanced by
`Halieutics.Diamonds.Open.step`, and nothing happens to the others.

Main definitions:

* `Halieutics.Diamonds.Ranged` — the lobby hands out the numbers it has;
* `Halieutics.Diamonds.Square` — **the books of all desks**.

Main results:

* `Halieutics.Diamonds.After.finish` — **a handler of a desk, carried on to its end**;
* `Halieutics.Diamonds.Square.change` — an operation on one desk;
* `Halieutics.Diamonds.Next.hall` — the operations are those of `Halieutics.Mydesk`;
* `Halieutics.Diamonds.square_of_run` — **the books balance** after every run.
-/

import Halieutics.DiamondsDesk
import Halieutics.MydeskRuns

set_option relaxedAutoImplicit false
set_option autoImplicit false

namespace Halieutics.Diamonds

open LuaTable

/-! ### A handler, carried on to its end -/

section Handlers

variable {k : Codecs} {b : ℕ → ℤ} {w w' : World} {id : ℕ} {o : Out} {r : Ret} {inps : List Inp}

/-- **The services run as before**, and the bags answer `prop.use`. -/
theorem finish_hall (hf : finish w id o inps = some (w', r)) :
    ∃ inps', Mydesk.finish w.hall id o inps' = some (w'.hall, r) := by
  induction inps generalizing w o with
  | nil =>
      refine ⟨[], ?_⟩
      unfold finish at hf
      unfold Mydesk.finish
      cases hres : o.res with
      | wait pc =>
          rw [hres] at hf
          cases hf
      | ret r' =>
          rw [hres] at hf
          obtain ⟨rfl, rfl⟩ := Prod.mk.inj (Option.some_inj.1 hf)
          rfl
  | cons inp inps ih =>
      unfold finish at hf
      cases hres : o.res with
      | ret r' =>
          rw [hres] at hf
          obtain ⟨rfl, rfl⟩ := Prod.mk.inj (Option.some_inj.1 hf)
          refine ⟨[], ?_⟩
          unfold Mydesk.finish
          rw [hres]
          rfl
      | wait pc =>
          rw [hres] at hf
          obtain ⟨inps', h⟩ := ih hf
          refine ⟨told w.bags o.d inp pc :: inps', ?_⟩
          unfold Mydesk.finish
          rw [hres]
          exact h

theorem desks_removeMydesk (w : Mydesk.World) (id : ℕ) :
    (Mydesk.removeMydesk w id).desks = w.desks := by
  unfold Mydesk.removeMydesk
  split <;> rfl

theorem desks_lobbyFree (w : Mydesk.World) (id : ℕ) : (Mydesk.lobbyFree w id).desks = w.desks := by
  unfold Mydesk.lobbyFree
  split
  · rfl
  · exact desks_removeMydesk _ id

/-- The calls of a desk do not reach a desk. -/
theorem desks_serve (w : Mydesk.World) (id : ℕ) (d : Desk) (inp : Inp) (pc : Pc) :
    (Mydesk.serve w id d inp pc).desks = w.desks := by
  unfold Mydesk.serve
  split
  · rfl
  · rename_i r hr
    cases r with
    | lobbyFree => exact desks_lobbyFree w id
    | _ => rfl

/-- **Nothing happens elsewhere**: to the other desks, and to what is stored for them. -/
def Elsewhere (k : Codecs) (id : ℕ) (w w' : World) : Prop := ∀ id', id' ≠ id →
  w'.hall.desks id' = w.hall.desks id' ∧
    (Gamedb.spec k.records w'.ops id').costs = (Gamedb.spec k.records w.ops id').costs ∧
    Gamedb.opened k.records id' w'.ops = Gamedb.opened k.records id' w.ops

theorem Elsewhere.trans {w'' : World} (h : Elsewhere k id w w') (h' : Elsewhere k id w' w'') :
    Elsewhere k id w w'' := fun id' hid =>
  ⟨(h' id' hid).1.trans (h id' hid).1, (h' id' hid).2.1.trans (h id' hid).2.1,
    (h' id' hid).2.2.trans (h id' hid).2.2⟩

/-- A call of a desk writes to `gamedb` under its own number. -/
theorem stored_elsewhere (ops : List Op) (r : Rpc) {id' : ℕ} (hid : id' ≠ id) :
    (Gamedb.spec k.records (ops ++ gamedb id r) id').costs = (Gamedb.spec k.records ops id').costs ∧
      Gamedb.opened k.records id' (ops ++ gamedb id r) = Gamedb.opened k.records id' ops := by
  cases r with
  | addUser uid | removeUser uid | addCost c | saveCosts cs | start | freeDesk =>
      simp [gamedb, Gamedb.Op.spec, Gamedb.Op.opened, hid]
  | _ => simp [gamedb]

theorem elsewhere_setDesk (w : World) (d : Desk) : Elsewhere k id w (w.setDesk id d) :=
  fun _ hid => ⟨Mydesk.setDesk_ne w.hall d hid, rfl, rfl⟩

theorem elsewhere_serve (w : World) (d : Desk) (inp : Inp) (pc : Pc) :
    Elsewhere k id w (serve w id d inp pc) := by
  intro id' hid
  refine ⟨congrFun (desks_serve w.hall id d inp pc) id', ?_⟩
  cases hr : pc.rpc d inp with
  | none =>
      change (Gamedb.spec k.records (w.ops ++ (pc.rpc d inp).elim [] (gamedb id)) id').costs = _ ∧
        Gamedb.opened k.records id' (w.ops ++ (pc.rpc d inp).elim [] (gamedb id)) = _
      rw [hr, Option.elim, List.append_nil]
      exact ⟨rfl, rfl⟩
  | some r =>
      change (Gamedb.spec k.records (w.ops ++ (pc.rpc d inp).elim [] (gamedb id)) id').costs = _ ∧
        Gamedb.opened k.records id' (w.ops ++ (pc.rpc d inp).elim [] (gamedb id)) = _
      rw [hr]
      exact stored_elsewhere w.ops r hid

/-- **A handler of a desk, carried on to its end**: one step for each segment. -/
theorem After.finish (h : After k w.bags w.ops id b o) (hret : Returning inps)
    (hf : finish w id o inps = some (w', r)) :
    Shut k w'.bags w'.ops id b (w'.hall.desks id) ∧ Elsewhere k id w w' := by
  induction inps generalizing w o with
  | nil =>
      unfold Diamonds.finish at hf
      cases hres : o.res with
      | wait pc =>
          rw [hres] at hf
          cases hf
      | ret r' =>
          rw [After, hres] at h
          rw [hres] at hf
          obtain ⟨rfl, -⟩ := Prod.mk.inj (Option.some_inj.1 hf)
          refine ⟨?_, elsewhere_setDesk w o.d⟩
          rw [show (w.setDesk id o.d).hall.desks id = o.d from Mydesk.setDesk_self _ _ _]
          exact h
  | cons inp inps ih =>
      unfold Diamonds.finish at hf
      cases hres : o.res with
      | ret r' =>
          rw [After, hres] at h
          rw [hres] at hf
          obtain ⟨rfl, -⟩ := Prod.mk.inj (Option.some_inj.1 hf)
          refine ⟨?_, elsewhere_setDesk w o.d⟩
          rw [show (w.setDesk id o.d).hall.desks id = o.d from Mydesk.setDesk_self _ _ _]
          exact h
      | wait pc =>
          rw [After, hres] at h
          rw [hres] at hf
          obtain ⟨hinp, hinps⟩ := List.forall_mem_cons.1 hret
          obtain ⟨hshut, helse⟩ := ih (Open.step h hinp) hinps hf
          exact ⟨hshut, ((elsewhere_setDesk w o.d).trans (elsewhere_serve _ o.d _ pc)).trans helse⟩

/-- **`free_desk` after a game**, carried on to its end. -/
theorem Ends.finish (h : Ends k w.ops id o) (hf : finish w id o inps = some (w', r)) :
    w'.bags = w.bags ∧ (w'.hall.desks id).live = false ∧ Cleared k w'.ops id ∧
    Elsewhere k id w w' := by
  induction inps generalizing w o with
  | nil =>
      unfold Diamonds.finish at hf
      cases hres : o.res with
      | wait pc =>
          rw [hres] at hf
          cases hf
      | ret r' =>
          rw [Ends, hres] at h
          rw [hres] at hf
          obtain ⟨rfl, -⟩ := Prod.mk.inj (Option.some_inj.1 hf)
          refine ⟨rfl, ?_, h.2, elsewhere_setDesk w o.d⟩
          rw [show (w.setDesk id o.d).hall.desks id = o.d from Mydesk.setDesk_self _ _ _]
          exact h.1
  | cons inp inps ih =>
      unfold Diamonds.finish at hf
      cases hres : o.res with
      | ret r' =>
          rw [Ends, hres] at h
          rw [hres] at hf
          obtain ⟨rfl, -⟩ := Prod.mk.inj (Option.some_inj.1 hf)
          refine ⟨rfl, ?_, h.2, elsewhere_setDesk w o.d⟩
          rw [show (w.setDesk id o.d).hall.desks id = o.d from Mydesk.setDesk_self _ _ _]
          exact h.1
      | wait pc =>
          rw [Ends, hres] at h
          rw [hres] at hf
          obtain ⟨hbags, hends⟩ := Ends.step w.bags h.1 h.2 (told w.bags o.d inp pc)
          obtain ⟨hsame, hlive, hclear, helse⟩ := ih hends hf
          exact ⟨hsame.trans hbags, hlive, hclear,
            ((elsewhere_setDesk w o.d).trans (elsewhere_serve _ o.d _ pc)).trans helse⟩

end Handlers

/-! ### The numbers of the lobby -/

/-- **The lobby hands out the `n` numbers from `lo` on**, and no others. -/
def Ranged (lo n : ℕ) (l : Lobby.Data) : Prop :=
  ∀ id, id ∈ l.buffer ∨ (l.deskmap.lookup id).isSome = true → id ∈ Finset.Ico lo (lo + n)

section Numbers

variable {lo n : ℕ} {w w' : Mydesk.World} {id : ℕ} {o : Out} {r : Ret} {inps : List Inp}

theorem ranged_lobbyFree (h : Ranged lo n w.lobby) (id : ℕ) :
    Ranged lo n (Mydesk.lobbyFree w id).lobby := by
  have hun : (w.lobby.unwatched id).deskmap = w.lobby.deskmap := Lobby.deskmap_unwatched w.lobby id
  have hbuffer : (w.lobby.unwatched id).buffer = w.lobby.buffer := by
    unfold Lobby.Data.unwatched
    split <;> rfl
  have hranged : Ranged lo n (w.lobby.unwatched id) := by
    rw [Ranged, hun, hbuffer]
    exact h
  cases he : w.lobby.deskmap.lookup id with
  | none =>
      have hfree : Lobby.free w.lobby id = .ret (w.lobby.unwatched id) .nil := by
        rw [Lobby.free_eq, hun, he]
        rfl
      unfold Mydesk.lobbyFree
      rw [hfree]
      exact hranged
  | some e =>
      set l : Lobby.Data :=
        { w.lobby.unwatched id with deskmap := w.lobby.deskmap.erase id } with hl
      have hfree : Lobby.free w.lobby id = .wait l (.removeMydesk id e) := by
        rw [Lobby.free_eq, hun, he]
        rfl
      have hlobby : (Mydesk.lobbyFree w id).lobby = (Lobby.freed l id e).d := by
        unfold Mydesk.lobbyFree
        rw [hfree]
        unfold Mydesk.removeMydesk
        dsimp only
        split <;> rfl
      have hmap : (Lobby.freed l id e).d.deskmap = w.lobby.deskmap.erase id :=
        Rooms.deskmap_freed l id e
      have hmem : ∀ id' ∈ (Lobby.freed l id e).d.buffer, id' ∈ w.lobby.buffer ∨ id' = id := by
        intro id' hid'
        rcases Rooms.buffer_freed l id e with hb | hb
        · rw [hb] at hid'
          exact Or.inl (hbuffer ▸ hid')
        · rw [hb] at hid'
          rcases List.mem_append.1 hid' with hold | hnew
          · exact Or.inl (hbuffer ▸ hold)
          · exact Or.inr (List.mem_singleton.1 hnew)
      have hin : id ∈ Finset.Ico lo (lo + n) := h id (Or.inr (by rw [he]; rfl))
      rw [hlobby]
      rintro id' (hid' | hid')
      · rcases hmem id' hid' with hold | rfl
        · exact h id' (Or.inl hold)
        · exact hin
      · rw [hmap, lookup_erase_eq] at hid'
        split at hid'
        · cases hid'
        · exact h id' (Or.inr hid')

theorem ranged_serve (h : Ranged lo n w.lobby) (d : Desk) (inp : Inp) (pc : Pc) :
    Ranged lo n (Mydesk.serve w id d inp pc).lobby := by
  unfold Mydesk.serve
  split
  · exact h
  · rename_i r hr
    cases r with
    | lobbyFree => exact ranged_lobbyFree h id
    | _ => exact h

theorem ranged_finish (h : Ranged lo n w.lobby) (hf : Mydesk.finish w id o inps = some (w', r)) :
    Ranged lo n w'.lobby := by
  induction inps generalizing w o with
  | nil =>
      unfold Mydesk.finish at hf
      cases hres : o.res with
      | wait pc =>
          rw [hres] at hf
          cases hf
      | ret r' =>
          rw [hres] at hf
          obtain ⟨rfl, -⟩ := Prod.mk.inj (Option.some_inj.1 hf)
          exact h
  | cons inp inps ih =>
      unfold Mydesk.finish at hf
      cases hres : o.res with
      | ret r' =>
          rw [hres] at hf
          obtain ⟨rfl, -⟩ := Prod.mk.inj (Option.some_inj.1 hf)
          exact h
      | wait pc =>
          rw [hres] at hf
          exact ih (ranged_serve (w := w.setDesk id o.d) h o.d inp pc) hf

/-- **`lobby.assign`** hands out a number of the buffer. -/
theorem ranged_assign {l : Lobby.Data} (h : Ranged lo n l) (uid : ℕ) (info : Lobby.Info)
    (inp : Lobby.Inp) :
    Ranged lo n (Mydesk.answered {} (Lobby.assign l uid info inp)).d := by
  unfold Lobby.assign
  split
  · exact h
  · split
    · exact h
    · rename_i id buffer hdraw
      have hperm := Lobby.randomId_perm hdraw
      have hin : id ∈ Finset.Ico lo (lo + n) := h id (Or.inl (hperm.mem_iff.2 List.mem_cons_self))
      have hbuffer : ∀ id' ∈ buffer, id' ∈ Finset.Ico lo (lo + n) := fun id' hid' =>
        h id' (Or.inl (hperm.mem_iff.2 (List.mem_cons_of_mem id hid')))
      have hinsert : ∀ (e : Lobby.Desk) id', ((l.deskmap.insert id e).lookup id').isSome = true →
          id' ∈ Finset.Ico lo (lo + n) := by
        intro e id' hid'
        rw [lookup_insert_eq] at hid'
        split at hid'
        · rename_i heq
          exact heq ▸ hin
        · exact h id' (Or.inr hid')
      dsimp only
      split
      · rintro id' (hid' | hid')
        · exact hbuffer id' hid'
        · exact h id' (Or.inr hid')
      · split
        all_goals
          rintro id' (hid' | hid')
          · exact hbuffer id' hid'
          · exact hinsert _ id' hid'

theorem ranged_monitorDesk {l : Lobby.Data} (h : Ranged lo n l) (id : ℕ) :
    Ranged lo n (Lobby.monitorDesk l id).d := by
  unfold Lobby.monitorDesk
  cases he : l.deskmap.lookup id with
  | none => exact h
  | some e =>
      rintro id' (hid' | hid')
      · exact h id' (Or.inl hid')
      · have hid' : ((l.deskmap.insert id { e with monitored := true }).lookup id').isSome =
          true := hid'
        rw [lookup_insert_eq] at hid'
        split at hid'
        · rename_i heq
          exact heq ▸ h id (Or.inr (by rw [he]; rfl))
        · exact h id' (Or.inr hid')

theorem ranged_openGame {l : Lobby.Data} (h : Ranged lo n l) (name : String) :
    Ranged lo n (Lobby.openGame l name).d := by
  unfold Lobby.openGame
  split <;> exact h

end Numbers

/-! ### The books of all desks -/

/-- **The books of all desks.** -/
structure Square (k : Codecs) (lo n : ℕ) (bags : ℕ → ℤ) (w : World) : Prop where
  sound : Mydesk.Sound w.hall 0
  range : Ranged lo n w.hall.lobby
  desk : ∀ id, Shut k w.bags w.ops id (fun u => w.bags u + deskOwes (w.hall.desks id) u)
    (w.hall.desks id)
  level : ∀ u, w.bags u + outstanding lo n w u = bags u

section Squares

variable {k : Codecs} {lo n : ℕ} {bags : ℕ → ℤ} {w w' : World} {id : ℕ} {r : Ret} {inps : List Inp}

/-- A live desk has a number of the lobby. -/
theorem mem_Ico_of_live (hs : Mydesk.Sound w.hall 0) (hr : Ranged lo n w.hall.lobby)
    (hl : (w.hall.desks id).live = true) : id ∈ Finset.Ico lo (lo + n) :=
  hr id (Or.inr ((hs.ground.live id).1 hl))

/-- The books of a desk depend on nothing but the sum of what the bag of a user has and what the
desk owes him. -/
theorem Shut.level_self {b : ℕ → ℤ} {d : Desk} {bags : ℕ → ℤ} {ops : List Op}
    (h : Shut k bags ops id b d) :
    Shut k bags ops id (fun u => bags u + deskOwes d u) d :=
  ⟨h.pushed, fun _ => rfl, h.costs, h.opened⟩

/-- No diamonds are moved. -/
theorem Shut.even {b : ℕ → ℤ} {d d' : Desk} {bags : ℕ → ℤ} {ops : List Op}
    (h : Shut k bags ops id b d)
    (he : Even d d') : Shut k bags ops id b d' where
  pushed := fun hl => (h.pushed (he.live.symm.trans hl)).even he
  level := fun u => by rw [deskOwes, he.live, he.costList]; exact h.level u
  costs := by rw [he.live, he.costList]; exact h.costs
  opened := h.opened.trans he.live.symm

theorem Shut.congr {b : ℕ → ℤ} {d : Desk} {bags bags' : ℕ → ℤ} {ops ops' : List Op}
    (h : Shut k bags ops id b d)
    (hc : (Gamedb.spec k.records ops' id).costs = (Gamedb.spec k.records ops id).costs)
    (ho : Gamedb.opened k.records id ops' = Gamedb.opened k.records id ops) :
    Shut k bags' ops' id (fun u => bags' u + deskOwes d u) d :=
  ⟨h.pushed, fun _ => rfl, hc.trans h.costs, by rw [ho]; exact h.opened⟩

/-- **An operation on one desk**, after which this desk and the bag of a user have `b u`
diamonds. -/
theorem Square.moved {b bags' : ℕ → ℤ} (h : Square k lo n bags w) (hs : Mydesk.Sound w'.hall 0)
    (hr : Ranged lo n w'.hall.lobby) (hshut : Shut k w'.bags w'.ops id b (w'.hall.desks id))
    (helse : Elsewhere k id w w')
    (hb : ∀ u, bags' u = bags u + b u - (w.bags u + deskOwes (w.hall.desks id) u)) :
    Square k lo n bags' w' := by
  refine ⟨hs, hr, fun id' => ?_, fun u => ?_⟩
  · by_cases hid : id' = id
    · rw [hid]
      exact hshut.level_self
    · obtain ⟨hdesk, hcosts, hopened⟩ := helse id' hid
      rw [hdesk]
      exact (h.desk id').congr hcosts hopened
  · have hlevel := hshut.level u
    have hbefore := h.level u
    have hbags := hb u
    have hsum : ∀ id' ∈ (Finset.Ico lo (lo + n)).erase id,
        deskOwes (w'.hall.desks id') u = deskOwes (w.hall.desks id') u := fun id' hid' => by
      rw [(helse id' (Finset.ne_of_mem_erase hid')).1]
    by_cases hin : id ∈ Finset.Ico lo (lo + n)
    · rw [outstanding, ← Finset.add_sum_erase _ _ hin, Finset.sum_congr rfl hsum]
      rw [outstanding, ← Finset.add_sum_erase _ _ hin] at hbefore
      linarith
    · -- a desk without a number of the lobby is not live
      have hdead : deskOwes (w.hall.desks id) u = 0 :=
        if_neg fun hl => hin (mem_Ico_of_live h.sound h.range hl)
      have hdead' : deskOwes (w'.hall.desks id) u = 0 :=
        if_neg fun hl => hin (mem_Ico_of_live hs hr hl)
      rw [Finset.erase_eq_of_notMem hin] at hsum
      rw [outstanding, Finset.sum_congr rfl hsum]
      rw [outstanding] at hbefore
      linarith

/-- An operation on one desk that spends nothing. -/
theorem Square.change (id : ℕ) (h : Square k lo n bags w) (hs : Mydesk.Sound w'.hall 0)
    (hr : Ranged lo n w'.hall.lobby)
    (hshut : Shut k w'.bags w'.ops id (fun u => w.bags u + deskOwes (w.hall.desks id) u)
    (w'.hall.desks id))
    (helse : Elsewhere k id w w') : Square k lo n bags w' :=
  h.moved hs hr hshut helse fun _ => (add_sub_cancel_right _ _).symm

/-- An operation that moves no diamonds. -/
theorem Square.quiet (h : Square k lo n bags w) (hs : Mydesk.Sound w'.hall 0)
    (hr : Ranged lo n w'.hall.lobby)
    (hd : w'.hall.desks = w.hall.desks) (hb : w'.bags = w.bags) (ho : w'.ops = w.ops) :
    Square k lo n bags w' := by
  refine ⟨hs, hr, fun id => ?_, fun u => ?_⟩
  · rw [hd, hb, ho]
    exact h.desk id
  · rw [outstanding, hd, hb]
    exact h.level u

/-- The requests of the operations. -/
def asked : Req → Bool
  | .join _ android => !android
  | .sitdown _ _ | .standup _ | .leave _ | .afk _ | .sceneinfo _ | .forceDismiss => true
  | _ => false

/-- **The first segment of a request.** -/
theorem Shut.direct {b : ℕ → ℤ} {d : Desk} {bags : ℕ → ℤ} {ops : List Op}
    (h : Shut k bags ops id b d) {q : Req}
    (hq : asked q = true) (inp : Inp) : After k bags ops id b (direct d inp q) := by
  cases hl : d.live with
  | false =>
      have hret : ∃ r, Halieutics.direct d inp q = .ret d r := by
        cases q with
        | join uid android => exact ⟨_, if_pos (by rw [hl]; rfl)⟩
        | leave uid => exact ⟨_, if_pos (by rw [hl]; rfl)⟩
        | forceDismiss => exact ⟨_, if_pos (by rw [hl]; rfl)⟩
        | sitdown uid withseat => exact Mydesk.direct_of_not_live hl inp rfl
        | standup uid => exact Mydesk.direct_of_not_live hl inp rfl
        | afk uid => exact Mydesk.direct_of_not_live hl inp rfl
        | sceneinfo uid => exact Mydesk.direct_of_not_live hl inp rfl
        | _ => cases hq
      obtain ⟨r, hout⟩ := hret
      rw [hout]
      exact h
  | true =>
      have hbooks := h.books hl
      cases q with
      | join uid android =>
          cases android with
          | true => cases hq
          | false => exact hbooks.join uid inp
      | sitdown uid withseat => exact hbooks.sitdown uid withseat
      | standup uid => exact hbooks.standup uid .ret
      | leave uid => exact hbooks.leave uid
      | forceDismiss => exact hbooks.forceDismiss
      | afk uid =>
          obtain ⟨d', r, hout, he⟩ := even_afk d uid
          rw [Halieutics.direct, hout]
          exact (hbooks.even he).ret r
      | sceneinfo uid =>
          obtain ⟨d', r, hout, he⟩ := even_sceneinfo d uid
          rw [Halieutics.direct, hout]
          exact (hbooks.even he).ret r
      | _ => cases hq

/-- **A request to a desk.** -/
theorem Square.request (h : Square k lo n bags w) {q : Req} (hq : asked q = true) {inp : Inp}
    (hret : Returning inps) (hf : request w id q inp inps = some (w', r)) :
    Shut k w'.bags w'.ops id (fun u => w.bags u + deskOwes (w.hall.desks id) u) (w'.hall.desks id) ∧
      Elsewhere k id w w' ∧ Ranged lo n w'.hall.lobby := by
  obtain ⟨hshut, helse⟩ := After.finish ((h.desk id).direct hq inp) hret hf
  obtain ⟨inps', hhall⟩ := finish_hall hf
  exact ⟨hshut, helse, ranged_finish h.range hhall⟩

end Squares

/-! ### The operations -/

section Operations

variable {k : Codecs} {lo n : ℕ} {bags : ℕ → ℤ} {w w' : World}

/-- `cli:create` is the one of `Halieutics.Mydesk`, with what is left in the bag. -/
theorem hall_cliCreate (w : World) (uid : ℕ) (info : Lobby.Info) (inp : Lobby.Inp) :
    ∃ left, (cliCreate w uid info inp).hall = Mydesk.cliCreate w.hall uid info inp left := by
  unfold cliCreate Mydesk.cliCreate
  cases hm : w.hall.users uid with
  | none => exact ⟨0, rfl⟩
  | some m =>
      dsimp only
      by_cases hactive : m.active.isSome = true
      · exact ⟨0, by rw [if_pos hactive, if_pos hactive]⟩
      · rw [if_neg hactive]
        by_cases hlimit : w.hall.limit ≤ Userdb.getCreateDeskNum w.hall.dbs uid
        · exact ⟨0, by rw [if_pos hlimit, if_neg hactive, if_pos hlimit]⟩
        · rw [if_neg hlimit]
          simp only [if_neg hactive, if_neg hlimit]
          cases hout : Mydesk.answered {} (Lobby.assign w.hall.lobby uid info inp) with
          | wait l pc => exact ⟨0, rfl⟩
          | ret l r =>
              cases r with
              | nil => exact ⟨0, rfl⟩
              | raise msg => exact ⟨0, rfl⟩
              | desk id e =>
                  refine ⟨(useProp (w.bags uid) e.pay.total).2, ?_⟩
                  dsimp only
                  have hleft : (if 0 < e.pay.total then (useProp (w.bags uid) e.pay.total).2
                    else e.pay.total) =
                      (paid (w.bags uid) e.pay.total).2 := by
                    unfold paid
                    split <;> rfl
                  rw [hleft]
                  by_cases hpaid : 0 ≤ (paid (w.bags uid) e.pay.total).2
                  · rw [if_pos hpaid, if_pos hpaid]
                    split <;> rfl
                  · rw [if_neg hpaid, if_neg hpaid]

/-- **The operations are those of `Halieutics.Mydesk`.** -/
theorem Next.hall {s : ℕ → ℤ} (h : Next w s w') : Mydesk.Next 0 w.hall w'.hall := by
  cases h with
  | openGame name => exact .openGame name
  | assign uid => exact .assign uid
  | create uid info inp =>
      obtain ⟨left, hleft⟩ := hall_cliCreate w uid info inp
      rw [hleft]
      exact .create uid info inp left
  | join uid id inp inps _ hf =>
      unfold cliJoin at hf
      cases hm : w.hall.users uid with
      | none =>
          rw [hm] at hf
          refine .join uid id inp [] ?_
          rw [Mydesk.cliJoin, hm, ← Option.some_inj.1 hf]
      | some m =>
          rw [hm] at hf
          dsimp only at hf
          by_cases hactive : m.active.isSome = true
          · rw [if_pos hactive] at hf
            refine .join uid id inp [] ?_
            rw [Mydesk.cliJoin, hm, ← Option.some_inj.1 hf]
            exact if_pos hactive
          · rw [if_neg hactive] at hf
            cases hq : w.hall.query id with
            | none =>
                rw [hq] at hf
                refine .join uid id inp [] ?_
                rw [Mydesk.cliJoin, hm, ← Option.some_inj.1 hf]
                dsimp only
                rw [if_neg hactive, hq]
            | some room =>
                rw [hq] at hf
                obtain ⟨⟨v, r⟩, hv, hw⟩ := Option.map_eq_some_iff.1 hf
                obtain ⟨inps', hhall⟩ := finish_hall hv
                refine .join uid id inp inps' ?_
                rw [Mydesk.cliJoin, hm]
                dsimp only
                rw [if_neg hactive, hq]
                refine Option.map_eq_some_iff.2 ⟨(v.hall, r), hhall, ?_⟩
                rw [← hw]
                dsimp only
                split <;> rfl
  | leave uid inp inps _ hf =>
      unfold cliLeave at hf
      cases hm : w.hall.users uid with
      | none =>
          rw [hm] at hf
          refine .leave uid inp [] ?_
          rw [Mydesk.cliLeave, hm, ← Option.some_inj.1 hf]
      | some m =>
          rw [hm] at hf
          dsimp only at hf
          cases hactive : m.active with
          | none =>
              rw [hactive] at hf
              refine .leave uid inp [] ?_
              rw [Mydesk.cliLeave, hm, ← Option.some_inj.1 hf]
              dsimp only
              rw [hactive]
          | some room =>
              rw [hactive] at hf
              obtain ⟨⟨v, r⟩, hv, hw⟩ := Option.map_eq_some_iff.1 hf
              obtain ⟨inps', hhall⟩ := finish_hall hv
              refine .leave uid inp inps' ?_
              rw [Mydesk.cliLeave, hm]
              dsimp only
              rw [hactive]
              refine Option.map_eq_some_iff.2 ⟨(v.hall, r), hhall, ?_⟩
              rw [← hw]
              dsimp only
              split <;> rfl
  | staying id r inp inps _ hr hf =>
      obtain ⟨inps', hhall⟩ := finish_hall hf
      exact .staying id r inp inps' hr hhall
  | dismissApply id uid inps _ hf =>
      have hcall : ∃ inps' r,
        Mydesk.clientDismissApply w.hall id uid inps' = some (w'.hall, r) := by
        unfold clientDismissApply at hf
        unfold Mydesk.clientDismissApply
        cases hu : admits (w.hall.desks id) uid with
        | none =>
            rw [hu] at hf
            obtain ⟨rfl, rfl⟩ := Prod.mk.inj (Option.some_inj.1 hf)
            exact ⟨[], _, rfl⟩
        | some u =>
            rw [hu] at hf
            obtain ⟨inps', hhall⟩ := finish_hall hf
            exact ⟨inps', _, hhall⟩
      obtain ⟨inps', r, hcall⟩ := hcall
      exact .dismissApply id uid inps' hcall
  | monitorWork id inp inps _ hq hf =>
      obtain ⟨⟨v, r⟩, hv, hw⟩ := Option.map_eq_some_iff.1 hf
      obtain ⟨inps', hhall⟩ := finish_hall hv
      refine .monitorWork id inp inps' hq (Option.map_eq_some_iff.2 ⟨(v.hall, r), hhall, ?_⟩)
      rw [← hw]
      dsimp only
      split <;> rfl
  | plays id d first hplays _ => exact .plays id d hplays
  | gameEnds id r inps hl hf =>
      obtain ⟨inps', hhall⟩ := finish_hall hf
      exact .freeDesk id r inps' hl hhall

/-- A session is built anew: the lobby and the desks do not change. -/
theorem restoreCreate_same (uid : ℕ) (acd : Option ℕ) (w : Mydesk.World) (ids : List ℕ) :
    (Mydesk.restoreCreate uid acd w ids).desks = w.desks ∧
    (Mydesk.restoreCreate uid acd w ids).lobby = w.lobby := by
  induction ids generalizing w with
  | nil => exact ⟨rfl, rfl⟩
  | cons id ids ih =>
      rw [Mydesk.restoreCreate]
      split
      · exact ih w
      · split
        · exact ih _
        · exact ih _

theorem agentAssign_same (w : Mydesk.World) (uid : ℕ) :
    (Mydesk.agentAssign w uid).desks = w.desks ∧ (Mydesk.agentAssign w uid).lobby = w.lobby := by
  unfold Mydesk.agentAssign
  split
  · exact ⟨rfl, rfl⟩
  · exact restoreCreate_same uid _ _ _

/-- What was taken is the price, or nothing. -/
theorem paid_spec (bag total : ℤ) :
    (0 ≤ (paid bag total).2 → (paid bag total).1 + total = bag) ∧
      (¬ 0 ≤ (paid bag total).2 → (paid bag total).1 = bag) := by
  unfold paid
  split
  · refine ⟨fun hleft => ?_, fun hleft => if_neg hleft⟩
    rw [useProp]
    dsimp only [useProp] at hleft ⊢
    rw [if_pos hleft]
    ring
  · refine ⟨fun hleft => ?_, fun _ => rfl⟩
    dsimp only at hleft ⊢
    linarith

/-- **A desk has been created**, and its creater has paid. -/
theorem shut_created {b : ℕ → ℤ} {ops : List Op} {id uid : ℕ} {e : Lobby.Desk} {bag : ℤ}
    {bags : ℕ → ℤ}
    (hcreater : e.creater = uid) (hbag : bag + e.pay.total = bags uid)
    (hcosts : (Gamedb.spec k.records ops id).costs = 0) (hb : ∀ u, bags u = b u) :
    Shut k (Function.update bags uid bag)
      (ops ++ [.addCost id ⟨e.creater, e.pay.total⟩, .createDesk ⟨id, e.creater, 0⟩]) id b
      (Desk.create id e.creater ⟨e.pay.AA, e.pay.total⟩ e.info.timelimit) := by
  have hlist : (Desk.create id e.creater ⟨e.pay.AA, e.pay.total⟩ e.info.timelimit).costList =
      [⟨e.creater, e.pay.total, 0⟩] := rfl
  have hops :
    ops ++ [Gamedb.Op.addCost id ⟨e.creater, e.pay.total⟩, .createDesk ⟨id, e.creater, 0⟩] =
      (ops ++ [Gamedb.Op.addCost id ⟨e.creater, e.pay.total⟩]) ++
      [.createDesk ⟨id, e.creater, 0⟩] := by simp
  refine ⟨fun _ uid u hu => ?_, fun u => ?_, ?_, ?_⟩
  · simp [Desk.create] at hu
  · rw [← hb u, deskOwes, if_pos (by rfl), hlist, owedBy_singleton]
    by_cases hu : uid = u
    · subst hu
      rw [Function.update_self, if_pos hcreater]
      exact hbag
    · rw [Function.update_of_ne (Ne.symm hu), if_neg (by rw [hcreater]; exact hu), add_zero]
  · rw [if_pos (by rfl), hlist, hops, Gamedb.spec_append_singleton, Gamedb.spec_append_singleton]
    simp [Gamedb.Op.spec, hcosts, charge]
  · rw [hops, Gamedb.opened_append_singleton, Gamedb.opened_append_singleton]
    simp [Gamedb.Op.opened, Codecs.records, Desk.create]

/-- **`cli:create`.** -/
theorem Square.create (h : Square k lo n bags w) (uid : ℕ) (info : Lobby.Info) (inp : Lobby.Inp) :
    Square k lo n bags (cliCreate w uid info inp) := by
  have hs : Mydesk.Sound (cliCreate w uid info inp).hall 0 :=
    h.sound.next (Next.hall (.create uid info inp))
  have hassign := ranged_assign h.range uid info inp
  unfold cliCreate at hs ⊢
  cases hm : w.hall.users uid with
  | none => exact h
  | some m =>
      rw [hm] at hs
      dsimp only at hs ⊢
      split
      · exact h
      · rename_i hactive
        rw [if_neg hactive] at hs
        split
        · exact h
        · rename_i hlimit
          rw [if_neg hlimit] at hs
          obtain ⟨l, -, ⟨r, hr, -, hout⟩ | ⟨id, e, hid, hcreater, -, hout⟩⟩ :=
            Mydesk.assign_cases h.sound.ground.numbered uid info inp
          · rw [hout] at hassign hs ⊢
            cases r with
            | desk id e => exact absurd rfl (hr id e)
            | nil => exact h.quiet hs hassign rfl rfl rfl
            | raise msg => exact h.quiet hs hassign rfl rfl rfl
          · rw [hout] at hassign hs ⊢
            have hdead : (w.hall.desks id).live = false := by
              by_contra hlive
              have hsome := (h.sound.ground.live id).1 (by simpa using hlive)
              rw [h.sound.ground.numbered.free id hid] at hsome
              cases hsome
            have hcosts : (Gamedb.spec k.records w.ops id).costs = 0 := by
              rw [(h.desk id).costs, if_neg (by rw [hdead]; decide)]
            obtain ⟨htaken, hrefused⟩ := paid_spec (w.bags uid) e.pay.total
            dsimp only at hs ⊢
            by_cases hleft : 0 ≤ (paid (w.bags uid) e.pay.total).2
            · rw [if_pos hleft, if_neg (by rw [hdead]; decide)] at hs ⊢
              refine Square.change id h hs (ranged_monitorDesk hassign id) ?_ ?_
              · change Shut k _ _ id _ (Function.update w.hall.desks id _ id)
                rw [Function.update_self]
                refine shut_created hcreater (htaken hleft) hcosts fun u => ?_
                rw [deskOwes, if_neg (by rw [hdead]; decide), add_zero]
              · intro id' hne
                refine ⟨Function.update_of_ne hne _ _, ?_, ?_⟩
                · rw [List.append_cons, Gamedb.spec_append_singleton, Gamedb.spec_append_singleton]
                  simp [Gamedb.Op.spec, Function.update_of_ne hne]
                · rw [List.append_cons, Gamedb.opened_append_singleton,
                    Gamedb.opened_append_singleton]
                  simp [Gamedb.Op.opened, Codecs.records, hne]
            · rw [if_neg hleft] at hs ⊢
              refine h.quiet hs (ranged_lobbyFree hassign id) (desks_lobbyFree _ id) ?_ rfl
              -- the script refuses, and the bag is as it was
              rw [hrefused hleft, Function.update_eq_self]

/-- The game goes on. -/
theorem Square.plays (h : Square k lo n bags w) {id : ℕ} {d : Desk} (he : Even (w.hall.desks id) d)
    (first : Bool)
    (hs : Mydesk.Sound (w.setDesk id d).hall 0) :
    Square k lo n bags
    { w.setDesk id d with ops := w.ops ++ if first then [.start id] else [] } := by
  have hstored : ∀ id',
    (Gamedb.spec k.records (w.ops ++ if first then [.start id] else []) id').costs =
      (Gamedb.spec k.records w.ops id').costs ∧
        Gamedb.opened k.records id' (w.ops ++ if first then [.start id] else []) =
          Gamedb.opened k.records id' w.ops := by
    intro id'
    cases first with
    | false =>
        rw [if_neg Bool.false_ne_true, List.append_nil]
        exact ⟨rfl, rfl⟩
    | true =>
        rw [if_pos rfl, Gamedb.spec_append_singleton, Gamedb.opened_append_singleton]
        refine ⟨?_, rfl⟩
        by_cases hid : id' = id
        · subst hid
          simp [Gamedb.Op.spec]
        · simp [Gamedb.Op.spec, hid]
  have hself : (w.setDesk id d).hall.desks id = d := Mydesk.setDesk_self _ _ _
  refine Square.change id h hs h.range ?_ fun id' hid => ?_
  · change Shut k w.bags _ id _ ((w.setDesk id d).hall.desks id)
    rw [hself]
    have hshut := (h.desk id).even he
    exact ⟨hshut.pushed, hshut.level,
      (hstored id).1.trans hshut.costs, by rw [(hstored id).2]; exact hshut.opened⟩
  · exact ⟨Mydesk.setDesk_ne w.hall d hid, hstored id'⟩

/-- **A game ends**: what the desk owed is spent. -/
theorem Square.gameEnds (h : Square k lo n bags w) {id : ℕ} {r r' : Ret} {inps : List Inp}
    (hf : finish w id (Halieutics.freeDesk (w.hall.desks id) r) inps = some (w', r'))
    (hs : Mydesk.Sound w'.hall 0) :
    Square k lo n (fun u => bags u - deskOwes (w.hall.desks id) u) w' := by
  obtain ⟨hbags, hlive, hclear, helse⟩ := Ends.finish (k := k) (ends_freeLoop _ r) hf
  obtain ⟨inps', hhall⟩ := finish_hall hf
  refine h.moved hs (ranged_finish h.range hhall) (hclear.shut hlive) helse fun u => ?_
  rw [hbags]
  ring

/-- **One operation**: what it spends is gone. -/
theorem Square.next {s : ℕ → ℤ} (h : Square k lo n bags w) (hn : Next w s w') :
    Square k lo n (fun u => bags u - s u) w' := by
  have hs : Mydesk.Sound w'.hall 0 := h.sound.next hn.hall
  have hnone : Square k lo n bags w' →
    Square k lo n (fun u => bags u - (0 : ℕ → ℤ) u) w' := fun h => by
    simpa only [Pi.zero_apply, sub_zero] using h
  cases hn with
  | plays id d first hplays heven => exact hnone (h.plays heven first hs)
  | gameEnds id r inps hl hf => exact h.gameEnds hf hs
  | openGame name => exact hnone <| h.quiet hs (ranged_openGame h.range name) rfl rfl rfl
  | assign uid =>
      obtain ⟨hdesks, hlobby⟩ := agentAssign_same w.hall uid
      exact hnone (h.quiet hs (by rw [hlobby]; exact h.range) hdesks rfl rfl)
  | create uid info inp => exact hnone (h.create uid info inp)
  | join uid id inp inps hret hf =>
      refine hnone ?_
      unfold cliJoin at hf
      split at hf
      · exact Option.some_inj.1 hf ▸ h
      · split at hf
        · exact Option.some_inj.1 hf ▸ h
        · split at hf
          · exact Option.some_inj.1 hf ▸ h
          · obtain ⟨⟨v, r⟩, hv, rfl⟩ := Option.map_eq_some_iff.1 hf
            obtain ⟨hshut, helse, hr⟩ := h.request rfl hret hv
            dsimp only at hs ⊢
            split
            · rename_i hnil
              rw [if_pos hnil] at hs
              exact Square.change _ h hs hr hshut helse
            · rename_i hnil
              rw [if_neg hnil] at hs
              exact Square.change _ h hs hr hshut helse
  | leave uid inp inps hret hf =>
      refine hnone ?_
      unfold cliLeave at hf
      split at hf
      · exact Option.some_inj.1 hf ▸ h
      · split at hf
        · exact Option.some_inj.1 hf ▸ h
        · obtain ⟨⟨v, r⟩, hv, rfl⟩ := Option.map_eq_some_iff.1 hf
          obtain ⟨hshut, helse, hr⟩ := h.request rfl hret hv
          dsimp only at hs ⊢
          split
          · rename_i hnil
            rw [if_pos hnil] at hs
            exact Square.change _ h hs hr hshut helse
          · rename_i hnil
            rw [if_neg hnil] at hs
            exact Square.change _ h hs hr hshut helse
  | staying id q inp inps hret hq hf =>
      refine hnone ?_
      have hasked : asked q = true := by cases q <;> first | rfl | cases hq
      obtain ⟨hshut, helse, hr⟩ := h.request hasked hret hf
      exact h.change id hs hr hshut helse
  | dismissApply id uid inps hret hf =>
      refine hnone ?_
      unfold clientDismissApply at hf
      cases hu : admits (w.hall.desks id) uid with
      | none =>
          rw [hu] at hf
          exact (Prod.mk.inj (Option.some_inj.1 hf)).1 ▸ h
      | some u =>
          rw [hu] at hf
          have hl : (w.hall.desks id).live = true := by
            unfold admits at hu
            by_contra hl
            rw [if_neg hl] at hu
            cases hu
          obtain ⟨hshut, helse⟩ := After.finish (((h.desk id).books hl).dismissApply u) hret hf
          obtain ⟨inps', hhall⟩ := finish_hall hf
          exact h.change id hs (ranged_finish h.range hhall) hshut helse
  | monitorWork id inp inps hret hq hf =>
      refine hnone ?_
      obtain ⟨⟨v, r⟩, hv, rfl⟩ := Option.map_eq_some_iff.1 hf
      obtain ⟨hshut, helse, hr⟩ := h.request rfl hret hv
      dsimp only at hs ⊢
      split
      · rename_i hcode
        rw [if_pos hcode] at hs
        refine h.change id hs (ranged_lobbyFree hr id) ?_ ?_
        · rw [desks_lobbyFree]
          exact hshut
        · intro id' hne
          rw [desks_lobbyFree]
          exact helse id' hne
      · rename_i hcode
        rw [if_neg hcode] at hs
        exact h.change id hs hr hshut helse

/-- **The books balance at the start.** -/
theorem square_start (k : Codecs) (lo n load limit : ℕ) (roompara : Bool → ℕ → Option ℤ)
    (select : ℕ → ℕ)
    (bags : ℕ → ℤ) : Square k lo n bags (start lo n load limit roompara select bags) := by
  refine ⟨Mydesk.sound_start 0 lo n load limit roompara select, ?_, fun id => ?_, fun u => ?_⟩
  · rintro id (hid | hid)
    · have hid : id ∈ Lobby.initDeskidBuffer (fun _ => false) lo n [] := hid
      rw [Lobby.initDeskidBuffer_eq, List.nil_append, List.mem_range'_1] at hid
      exact Finset.mem_Ico.2 hid
    · cases hid
  · exact ⟨nofun, fun _ => rfl, rfl, rfl⟩
  · have hzero : outstanding lo n (start lo n load limit roompara select bags) u = 0 :=
      Finset.sum_eq_zero fun id _ => if_neg (by exact Bool.false_ne_true)
    rw [hzero, add_zero]
    rfl

/-- **The books balance** after every run. -/
theorem square_of_run (k : Codecs) {load limit : ℕ} {roompara : Bool → ℕ → Option ℤ}
    {select : ℕ → ℕ}
    {spent : ℕ → ℤ} (h : Run (start lo n load limit roompara select bags) spent w) :
    Square k lo n (fun u => bags u - spent u) w := by
  induction h with
  | refl =>
      simpa only [Pi.zero_apply, sub_zero] using square_start k lo n load limit roompara select bags
  | tail _ hn ih => simpa only [Pi.add_apply, sub_sub] using ih.next hn

end Operations

end Halieutics.Diamonds
