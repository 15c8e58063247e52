/-
**Handlers of a desk, carried on to their end.**

Between two segments of a handler its remote call reaches another service, which changes the session
or the user store.  The segments of `Halieutics.MydeskKeeps` are put together with these calls: one
lemma for each call that tells of a user who leaves, one for all others.

Main results:

* `Halieutics.Mydesk.sound_lobbyFree` — **a desk that nobody is at is freed**;
* `Halieutics.Mydesk.At.step` — **one segment of a desk**, with the call before it;
* `Halieutics.Mydesk.Good.finish` — **a handler of a desk, carried on to its end**.
-/

import Halieutics.MydeskKeeps
import Halieutics.Rooms

set_option relaxedAutoImplicit false
set_option autoImplicit false

namespace Halieutics.Mydesk

open LuaTable

/-! ### What the other services change -/

section Services

variable {w w' : World} {me id uid : ℕ} {d : Desk}

theorem mydesk_setMydesk_self (w : World) (uid : ℕ) {f : MyDesk → MyDesk} (hf : f {} = {}) :
    (w.setMydesk uid f).mydesk uid = f (w.mydesk uid) := by
  change (Function.update w.users uid ((w.users uid).map f) uid).getD {} = f ((w.users uid).getD {})
  rw [Function.update_self]
  cases w.users uid with
  | none => exact hf.symm
  | some m => rfl

theorem mydesk_setMydesk_some {m : MyDesk} (hm : w.users uid = some m) (f : MyDesk → MyDesk) :
    (w.setMydesk uid f).mydesk uid = f m := by
  change (Function.update w.users uid ((w.users uid).map f) uid).getD {} = f m
  rw [Function.update_self, hm]
  rfl

theorem mydesk_setMydesk_ne (w : World) {uid uid' : ℕ} (f : MyDesk → MyDesk) (h : uid' ≠ uid) :
    (w.setMydesk uid f).mydesk uid' = w.mydesk uid' := by
  change (Function.update w.users uid ((w.users uid).map f) uid').getD {} = _
  rw [Function.update_of_ne h]
  rfl

theorem Ground.congr (h : Ground w me) (hl : w'.lobby = w.lobby) (hd : w'.desks = w.desks)
    (hi : (w'.mydesk me).ids = (w.mydesk me).ids) : Ground w' me := by
  have howns : ∀ id, Owns w' me id ↔ Owns w me id := fun id => by rw [Owns, Owns, hl]
  refine ⟨?_, fun id => ?_, fun id e he => ?_, fun id => ?_, ?_⟩
  · rw [hl]
    exact h.numbered
  · rw [hl, hd]
    exact h.live id
  · rw [hl] at he
    rw [hd]
    exact h.creater id e he
  · rw [hi, howns]
    exact h.created id
  · rw [hi]
    exact h.once

theorem Rest.congr (h : Rest w me id) (hl : w'.lobby = w.lobby) (hd : w'.desks = w.desks)
    (hi : (w'.mydesk me).ids = (w.mydesk me).ids) : Rest w' me id :=
  ⟨h.ground.congr hl hd hi,
    fun id' hid => by rw [hd]; exact h.others id' hid, by rw [hd]; exact h.live,
    by rw [hd]; exact h.manned⟩

theorem Stored.congr {gone : Option ℕ} (h : Stored w me gone) (hl : w'.lobby = w.lobby)
    (hc : ∀ s, s ∈ Userdb.created w'.dbs me ↔ s ∈ Userdb.created w.dbs me) : Stored w' me gone := by
  intro s
  rw [hc, h s]
  refine exists_congr fun id => ?_
  rw [Owns, Owns, hl]

/-- The user has no active desk. -/
theorem home_of_none (ha : (w.mydesk me).active = none)
    (hs : Userdb.getActiveDesk w.dbs me = none) :
    Home w me := by
  refine ⟨by rw [ha, hs]; rfl, fun r hr => ?_⟩
  rw [ha] at hr
  cases hr

theorem Home.congr (h : Home w me) (hm : w'.mydesk me = w.mydesk me) (hd : w'.desks = w.desks)
    (hs : Userdb.getActiveDesk w'.dbs me = Userdb.getActiveDesk w.dbs me) : Home w' me := by
  refine ⟨?_, fun r hr => ?_⟩
  · rw [hm, hs]
    exact h.stored
  · rw [hm] at hr
    rw [hd]
    exact h.there r hr

/-- A session changes, but not the desks the user has created. -/
theorem ids_setMydesk (w : World) (uid me : ℕ) {f : MyDesk → MyDesk}
    (hf : ∀ m, (f m).create = m.create) :
    ((w.setMydesk uid f).mydesk me).ids = (w.mydesk me).ids := by
  by_cases h : me = uid
  · subst h
    change (((Function.update w.users me ((w.users me).map f) me).getD {}).create.map Room.id) = _
    rw [Function.update_self]
    unfold World.mydesk MyDesk.ids
    cases w.users me with
    | none => rfl
    | some m => exact congrArg (List.map Room.id) (hf m)
  · rw [mydesk_setMydesk_ne w f h]

theorem Rest.agentStandup (h : Rest w me id) (uid : ℕ) : Rest (agentStandup w uid) me id :=
  h.congr rfl rfl (ids_setMydesk w uid me fun _ => rfl)

/-- The agent of another user, or of a user who is put out, is told. -/
theorem active_agentStandup (w : World) (me : ℕ) :
    ((agentStandup w me).mydesk me).active = none := by
  rw [Mydesk.agentStandup, mydesk_setMydesk_self w me rfl]

theorem Home.agentStandup (hne : uid ≠ me) (h : Home w me) : Home (agentStandup w uid) me :=
  h.congr (mydesk_setMydesk_ne w _ hne.symm) rfl rfl

/-- The user store drops the active desk of a user. -/
def left (w : World) (uid : ℕ) : World := { w with dbs := Userdb.leave w.dbs uid }

theorem Stored.left (h : Stored w me none) (uid : ℕ) : Stored (left w uid) me none :=
  h.congr rfl fun s => by rw [Mydesk.left, Userdb.created_leave]

theorem getActiveDesk_left (w : World) (me : ℕ) :
    Userdb.getActiveDesk (left w me).dbs me = none := by
  rw [Mydesk.left, Userdb.getActiveDesk_leave, if_pos rfl]

theorem Home.left (hne : uid ≠ me) (h : Home w me) : Home (left w uid) me :=
  h.congr rfl rfl (by rw [Mydesk.left, Userdb.getActiveDesk_leave, if_neg hne.symm])

end Services

/-! ### One segment -/

section Steps

variable {w : World} {me id : ℕ} {d : Desk} {pc : Pc}

theorem At.inOrder (h : At w me id pc) (inp : Inp) (hf : pc.freeing = false) :
    InOrder (Job.out (w.desks id) inp (.seg pc)) :=
  seated_job (w.desks id) inp (j := .seg pc) (h.seated hf)

/-- The handler goes on to the next call. -/
theorem good_wait (h : Calm w me id) (hk : Kept (w.desks id) d) (hs : InOrder (.wait d pc))
    (hstage : ∀ w', Stored w' me none → Home w' me → w'.desks id = d → Stage w' me id pc) :
    Good w me id (.wait d pc) :=
  at_wait h hk (fun hf => hs fun pc' hpc' => by rw [List.mem_singleton.1 hpc']; exact hf)
    fun hst hh hd => hstage _ hst hh hd

theorem good_sitEnd (h : Calm w me id) (hk : Kept (w.desks id) d) {u : Ref}
    (hs : InOrder (sitEnd d u)) :
    Good w me id (sitEnd d u) := by
  obtain ⟨d', r, hout, hkept⟩ := kept_sitEnd d u
  rw [hout] at hs ⊢
  exact good_of_ret h (hk.trans hkept) hs ⟨d', r, rfl⟩

theorem kept_seatUser (d : Desk) (u : Ref) (seat : ℤ) : Kept d (seatUser d u seat) :=
  ⟨rfl, rfl, rfl, rfl, fun _ => rfl, fun _ h => h⟩

theorem kept_addCost (d : Desk) (c : Cost) : Kept d (addCost d c) :=
  ⟨rfl, rfl, rfl, rfl, fun _ => rfl, fun _ h => h⟩

theorem AfterBack.fits.kept {d d' : Desk} {k : AfterBack} (h : AfterBack.fits d k)
    (hk : Kept d d') :
    AfterBack.fits d' k := by
  cases k with
  | free r => trivial
  | standup u k =>
      cases k with
      | ret => trivial
      | dismissApply v =>
          refine ⟨h.1, ?_⟩
          rw [hk.id, hk.usermap]
          exact h.2

theorem kept_replaceCosts (d : Desk) (cs : List Cost) : Kept d (replaceCosts d cs) :=
  ⟨rfl, rfl, rfl, rfl, fun _ => rfl, fun _ h => h⟩

/-- The user sits, and may have to pay. -/
theorem good_sitSeated (h : Calm w me id) (hk : Kept (w.desks id) d) {u : Ref} {seat : ℤ}
    (hs : InOrder (sitSeated d u seat)) : Good w me id (sitSeated d u seat) := by
  have hseat := hk.trans (kept_seatUser d u seat)
  unfold sitSeated at hs ⊢
  dsimp only at hs ⊢
  split
  · rename_i hpay
    rw [if_pos hpay] at hs
    exact good_wait h hseat hs fun w' hst hh _ => ⟨hst, hh⟩
  · rename_i hpay
    rw [if_neg hpay] at hs
    exact good_sitEnd h hseat hs

/-- The points at which nobody has left yet. -/
def Pc.stays : Pc → Bool
  | .sitAdd _ _ | .sitUse _ | .sitRecord _ | .sitCost _ _ | .backRecord _ _ | .backAdd _ _
  | .backQuery _ _ | .backPush _ _ | .backSave _ | .standRemove _ _ => true
  | _ => false

/-- **The segments of a desk that leave its users where they are.** -/
theorem At.stay (h : At w me id pc) (inp : Inp) (hpc : Pc.stays pc = true) :
    Good w me id (Job.out (w.desks id) inp (.seg pc)) := by
  have hc : Calm w me id := by
    refine ⟨h.rest, ?_, ?_⟩
    all_goals
      have hstage := h.stage
      cases pc <;> first | exact hstage.1 | exact hstage.2 | exact hstage.2.1 | cases hpc
  have hf : pc.freeing = false := by cases pc <;> first | rfl | cases hpc
  have hk := kept_executed (w.desks id) inp pc
  have hs := h.inOrder inp hf
  have hstage := h.stage
  cases pc with
  | sitAdd u seat => exact good_sitSeated hc hk hs
  | sitUse u =>
      rw [Job.out, segment] at hs ⊢
      split
      · rename_i hpay
        rw [if_pos hpay] at hs
        exact good_wait hc hk hs fun w' hst hh _ => ⟨hst, hh⟩
      · rename_i hpay
        rw [if_neg hpay] at hs
        exact good_of_ret hc hk hs ⟨_, _, rfl⟩
  | sitRecord u =>
      rw [Job.out, segment] at hs ⊢
      split
      · rename_i hpush
        rw [if_pos hpush] at hs
        exact good_wait hc (hk.trans (kept_addCost _ _)) hs fun w' hst hh _ => ⟨hst, hh⟩
      · rename_i hpush
        rw [if_neg hpush] at hs
        exact good_of_ret hc hk hs ⟨_, _, rfl⟩
  | sitCost u c => exact good_sitEnd hc hk hs
  | backRecord p c | backAdd p c =>
      exact good_wait hc hk hs fun w' hst hh hd => ⟨hst, hh, by rw [hd]; exact hstage.2.2.kept hk⟩
  | backQuery p c =>
      rw [Job.out, segment] at hs ⊢
      split
      · rename_i hagent
        rw [if_pos hagent] at hs
        exact good_wait hc hk hs fun w' hst hh hd => ⟨hst, hh, by rw [hd]; exact hstage.2.2.kept hk⟩
      · rename_i hagent
        rw [if_neg hagent] at hs
        exact good_walkOn hc hk (hstage.2.2.kept hk) hs
  | backPush p c =>
      rw [Job.out, segment] at hs ⊢
      split
      · rename_i hraises
        rw [if_pos hraises] at hs
        exact good_of_ret hc hk hs ⟨_, _, rfl⟩
      · rename_i hraises
        rw [if_neg hraises] at hs
        exact good_walkOn hc hk (hstage.2.2.kept hk) hs
  | backSave p =>
      have hk' := hk.trans (kept_replaceCosts _ p.costs)
      have hsame : SameSeats (w.desks id)
        (replaceCosts (executed (w.desks id) inp (.backSave p)) p.costs) :=
        ⟨rfl, rfl, rfl, rfl, rfl, rfl, fun _ => rfl, rfl⟩
      have hseat : Seated (w.desks id) [] := (h.seated hf).congr rfl
      exact good_afterBack hc hk' (fun _ _ _ => hseat.same hsame) (hstage.2.2.kept hk') hs
  | standRemove uid k =>
      refine good_afterStandup hc hk ?_ hs
      cases k with
      | ret => trivial
      | dismissApply v => exact hstage.2.2
  | _ => cases hpc

/-- The handler goes on, after the user store or the agent may have been told. -/
theorem at_of_rest {w' : World} (h : Rest w' me id) (hk : Kept (w'.desks id) d)
    (hs : pc.freeing = false → Seated d [pc]) (hstage : Stage (w'.setDesk id d) me id pc) :
    At (w'.setDesk id d) me id pc := by
  refine ⟨h.kept hk, fun hf => ?_, hstage⟩
  rw [setDesk_self]
  exact hs hf

/-- A user leaves as part of `cli:dismiss_apply`: `gamedb` has dropped him. -/
theorem At.kickRemove {uid : ℕ} {v : Ref} (inp : Inp)
    (h : At w me id (.kickRemove uid (.leave (.dismissApply v)))) :
    Good (serve w id (w.desks id) inp (.kickRemove uid (.leave (.dismissApply v)))) me id
      (Job.out (w.desks id) inp (.seg (.kickRemove uid (.leave (.dismissApply v))))) := by
  obtain ⟨hst, hh, hid, hsource⟩ := h.stage
  have hk := kept_executed (w.desks id) inp (.kickRemove uid (.leave (.dismissApply v)))
  have hs := h.inOrder inp rfl
  refine at_of_rest h.rest hk
    (fun _ => hs fun pc' hpc' => by rw [List.mem_singleton.1 hpc']; rfl) ?_
  refine ⟨hst, fun hne => (hh hne).kept hk, ?_, ?_⟩
  · rw [setDesk_self]
    exact (hk.id v).trans hid
  · rw [setDesk_self]
    exact hk.source v hsource

/-- The user store has dropped him. -/
theorem At.kickLeave {uid : ℕ} {v : Ref} (inp : Inp)
    (h : At w me id (.kickLeave uid (.leave (.dismissApply v)))) :
    Good (serve w id (w.desks id) inp (.kickLeave uid (.leave (.dismissApply v)))) me id
      (Job.out (w.desks id) inp (.seg (.kickLeave uid (.leave (.dismissApply v))))) := by
  obtain ⟨hst, hh, hid, hsource⟩ := h.stage
  have hk := kept_executed (w.desks id) inp (.kickLeave uid (.leave (.dismissApply v)))
  have hs := h.inOrder inp rfl
  have hout : Job.out (w.desks id) inp (.seg (.kickLeave uid (.leave (.dismissApply v)))) =
      .wait (executed (w.desks id) inp (.kickLeave uid (.leave (.dismissApply v))))
      (.dismissAgent uid) := by
    rw [Job.out, segment, afterLeave, objs_executed, if_pos hsource, hid]
  rw [hout] at hs ⊢
  have hrest : Rest (left w uid) me id := h.rest.congr rfl rfl rfl
  refine at_of_rest hrest hk (fun _ => hs fun pc' hpc' => by rw [List.mem_singleton.1 hpc']; rfl) ?_
  refine ⟨hst.left uid, fun hne => ((hh hne).left hne).kept hk, ?_⟩
  rintro rfl
  exact getActiveDesk_left w uid

/-- His agent is told. -/
theorem At.dismissAgent {uid : ℕ} (inp : Inp) (h : At w me id (.dismissAgent uid)) :
    Good (serve w id (w.desks id) inp (.dismissAgent uid)) me id
      (Job.out (w.desks id) inp (.seg (.dismissAgent uid))) := by
  obtain ⟨hst, hh, hactive⟩ := h.stage
  have hst' : Stored (agentStandup w uid) me none := hst.congr rfl fun _ => Iff.rfl
  have hh' : Home (agentStandup w uid) me := by
    by_cases hne : uid = me
    · subst hne
      exact home_of_none (active_agentStandup w uid) (hactive rfl)
    · exact (hh hne).agentStandup hne
  have hk := kept_executed (w.desks id) inp (.dismissAgent uid)
  exact good_of_ret ⟨h.rest.agentStandup uid, hst', hh'⟩ hk (h.inOrder inp rfl) ⟨_, _, rfl⟩

/-- `free_desk` puts a user out: his agent is told, and the desk drops him. -/
theorem At.freeAgent {u : Ref} {r : Ret} (inp : Inp) (h : At w me id (.freeAgent u r)) :
    Good (serve w id (w.desks id) inp (.freeAgent u r)) me id
      (Job.out (w.desks id) inp (.seg (.freeAgent u r))) := by
  obtain ⟨hst, hh, -⟩ := h.stage
  have hk := kept_executed (w.desks id) inp (.freeAgent u r)
  have hrest : Rest (agentStandup w ((w.desks id).objs u).id) me id := h.rest.agentStandup _
  have hid : ((executed (w.desks id) inp (.freeAgent u r)).objs u).id = ((w.desks id).objs u).id :=
    hk.id u
  refine ⟨hrest.drop hk u, fun hf => (by cases hf), hst.congr rfl fun _ => Iff.rfl,
    fun hne => ?_, ?_⟩
  · have hh' : Home (agentStandup w ((w.desks id).objs u).id) me := hh.agentStandup (hid ▸ hne)
    exact hh'.drop hk hne
  · intro he
    rw [hid] at he
    rw [← he]
    exact active_agentStandup w _

/-- `gamedb` has dropped him. -/
theorem At.freeRemove {uid : ℕ} {r : Ret} (inp : Inp) (h : At w me id (.kickRemove uid (.free r))) :
    Good (serve w id (w.desks id) inp (.kickRemove uid (.free r))) me id
      (Job.out (w.desks id) inp (.seg (.kickRemove uid (.free r)))) := by
  obtain ⟨hst, hh, hactive⟩ := h.stage
  have hk := kept_executed (w.desks id) inp (.kickRemove uid (.free r))
  exact at_of_rest h.rest hk (fun hf => by cases hf) ⟨hst, fun hne => (hh hne).kept hk, hactive⟩

/-- The user store has dropped him, and the loop goes on. -/
theorem At.freeLeave {uid : ℕ} {r : Ret} (inp : Inp) (h : At w me id (.kickLeave uid (.free r))) :
    Good (serve w id (w.desks id) inp (.kickLeave uid (.free r))) me id
      (Job.out (w.desks id) inp (.seg (.kickLeave uid (.free r)))) := by
  obtain ⟨hst, hh, hactive⟩ := h.stage
  have hrest : Rest (left w uid) me id := h.rest.congr rfl rfl rfl
  have hh' : Home (left w uid) me := by
    by_cases hne : uid = me
    · subst hne
      exact home_of_none (hactive rfl) (getActiveDesk_left w uid)
    · exact (hh hne).left hne
  have hk := kept_executed (w.desks id) inp (.kickLeave uid (.free r))
  exact good_freeLoop (w := left w uid) ⟨hrest, hst.left uid, hh'⟩ hk r

/-- A desk that the user has not created, or has just given up. -/
theorem Stored.dismiss (h : Stored w me none) (hg : Ground w me) (hl : (w.desks id).live = true) :
    Stored { w with dbs := Userdb.dismiss w.dbs (w.desks id).creater id } me (some id) := by
  obtain ⟨e, he⟩ := Option.isSome_iff_exists.1 ((hg.live id).1 hl)
  have hcreater := hg.creater id e he
  intro s
  rw [Userdb.mem_created_dismiss, h s]
  constructor
  · rintro ⟨⟨id', -, rfl, howns⟩, hno⟩
    refine ⟨id', fun heq => hno ⟨?_, ?_⟩, rfl, howns⟩
    · obtain rfl := Option.some_inj.1 heq
      obtain ⟨e', he', hme⟩ := howns
      obtain rfl := Option.some_inj.1 (he.symm.trans he')
      rw [hcreater, hme]
    · rw [Option.some_inj.1 heq]
  · rintro ⟨id', hne, rfl, howns⟩
    exact ⟨⟨id', nofun, rfl, howns⟩,
      fun ⟨_, heq⟩ => hne (congrArg some (Nat.repr_injective heq))⟩

/-- **`free_desk`** gives the desk up, in the user store. -/
theorem At.dismiss {r : Ret} (inp : Inp) (h : At w me id (.freeDismiss r)) :
    Good (serve w id (w.desks id) inp (.freeDismiss r)) me id
      (Job.out (w.desks id) inp (.seg (.freeDismiss r))) := by
  obtain ⟨hst, hh, hempty⟩ := h.stage
  have hrest : Rest { w with dbs := Userdb.dismiss w.dbs (w.desks id).creater id } me id :=
    h.rest.congr rfl rfl rfl
  have hh' : Home { w with dbs := Userdb.dismiss w.dbs (w.desks id).creater id } me :=
    hh.congr rfl rfl (Userdb.getActiveDesk_dismiss _ _ _ _)
  have hk := kept_executed (w.desks id) inp (.freeDismiss r)
  exact at_of_rest hrest hk (fun hf => by cases hf)
    ⟨hst.dismiss h.rest.ground h.rest.live, hh'.kept hk, by rw [setDesk_self]; exact hempty⟩

/-- And in `gamedb`. -/
theorem At.gamedb {r : Ret} (inp : Inp) (h : At w me id (.freeGamedb r)) :
    Good (serve w id (w.desks id) inp (.freeGamedb r)) me id
      (Job.out (w.desks id) inp (.seg (.freeGamedb r))) := by
  obtain ⟨hst, hh, hempty⟩ := h.stage
  have hk := kept_executed (w.desks id) inp (.freeGamedb r)
  exact at_of_rest h.rest hk (fun hf => by cases hf)
    ⟨hst, hh.kept hk, by rw [setDesk_self]; exact hempty⟩

end Steps

/-! ### The lobby frees a desk -/

section Lobby

variable {w : World} {me id : ℕ}

/-- **`lobby.free`** of a desk it knows: its number goes back, unless no service has it. -/
theorem lobbyFree_spec {e : Lobby.Desk} (hn : Numbered w.lobby)
    (he : w.lobby.deskmap.lookup id = some e) :
    ∃ l, Numbered l ∧ l.deskmap = w.lobby.deskmap.erase id ∧
      lobbyFree w id = { removeMydesk w id with lobby := l } := by
  have hun : (w.lobby.unwatched id).deskmap = w.lobby.deskmap := Lobby.deskmap_unwatched w.lobby id
  have hbuffer : (w.lobby.unwatched id).buffer = w.lobby.buffer := by
    unfold Lobby.Data.unwatched
    split <;> rfl
  set l : Lobby.Data := { w.lobby.unwatched id with deskmap := w.lobby.deskmap.erase id } with hl
  have hfree : Lobby.free w.lobby id = .wait l (.removeMydesk id e) := by
    rw [Lobby.free_eq, hun, he]
    rfl
  have hmap : (Lobby.freed l id e).d.deskmap = w.lobby.deskmap.erase id :=
    Rooms.deskmap_freed l id e
  have hnot : id ∉ w.lobby.buffer := fun hid => by
    rw [hn.free id hid] at he
    cases he
  refine ⟨(Lobby.freed l id e).d, ⟨?_, fun id' hid' => ?_⟩, hmap, ?_⟩
  · rcases Rooms.buffer_freed l id e with hb | hb
    · rw [hb]
      exact hbuffer ▸ hn.nodup
    · rw [hb]
      change ((w.lobby.unwatched id).buffer ++ [id]).Nodup
      rw [hbuffer]
      exact (List.perm_append_singleton id _).nodup_iff.2 (List.nodup_cons.2 ⟨hnot, hn.nodup⟩)
  · rw [hmap, lookup_erase_eq]
    split
    · rfl
    · rename_i hne
      refine hn.free id' ?_
      rw [← hbuffer]
      rcases Rooms.buffer_freed l id e with hb | hb
      · rw [hb] at hid'
        exact hid'
      · rw [hb] at hid'
        exact (List.mem_append.1 hid').resolve_right fun h => hne (List.mem_singleton.1 h)
  · unfold lobbyFree
    rw [hfree]
    unfold removeMydesk
    dsimp only
    split <;> rfl

/-- **`agent.remove_mydesk`** takes a desk out of the session. -/
theorem ids_removeMydesk (h : Ground w me) (hl : (w.desks id).live = true) :
    ((removeMydesk w id).mydesk me).ids = (w.mydesk me).ids.erase id := by
  obtain ⟨e, he⟩ := Option.isSome_iff_exists.1 ((h.live id).1 hl)
  rw [removeMydesk, if_pos hl, agentRemoveMydesk]
  by_cases hme : me = (w.desks id).creater
  · rw [← hme, mydesk_setMydesk_self w me (by rfl)]
    rw [MyDesk.ids, MyDesk.ids, List.erase_eq_eraseP', List.eraseP_map]
    rfl
  · rw [mydesk_setMydesk_ne w _ hme, List.erase_of_not_mem]
    rw [h.created id]
    rintro ⟨e', he', howns⟩
    rw [h.creater id e' he'] at hme
    exact hme howns.symm

/-- The session does not lose the desk the user is at, when it is another one. -/
theorem active_removeMydesk (hl : (w.desks id).live = true) (hne : (w.mydesk me).isAt id = false) :
    ((removeMydesk w id).mydesk me).active = (w.mydesk me).active := by
  rw [removeMydesk, if_pos hl, agentRemoveMydesk]
  by_cases hme : me = (w.desks id).creater
  · rw [← hme, mydesk_setMydesk_self w me (by rfl)]
    dsimp only
    rw [if_neg (by rw [hne]; decide)]
  · rw [mydesk_setMydesk_ne w _ hme]

/-- Nobody is at an empty desk. -/
theorem not_isAt_of_empty (hh : Home w me) (hempty : vals (w.desks id).usermap = []) :
    (w.mydesk me).isAt id = false := by
  rw [MyDesk.isAt]
  cases hactive : (w.mydesk me).active with
  | none => rfl
  | some r =>
      by_contra hat
      have hid : r.id = id := by simpa using hat
      obtain ⟨-, hmem, -⟩ := hh.there r hactive
      rw [hid] at hmem
      obtain ⟨u, hu⟩ := Option.isSome_iff_exists.1 (AList.lookup_isSome.2 hmem)
      have hval := LuaTable.mem_vals.2 ⟨me, hu⟩
      rw [hempty] at hval
      cases hval

/-- **A desk that nobody is at is freed.** -/
theorem sound_lobbyFree {d : Desk} (hg : Ground w me) (ho : ∀ id', id' ≠ id → Staffed (w.desks id'))
    (hl : (w.desks id).live = true) (hd : d.live = false) (hs : Stored w me (some id))
    (hh : Home w me)
    (hempty : vals (w.desks id).usermap = []) : Sound ((lobbyFree w id).setDesk id d) me := by
  obtain ⟨e, he⟩ := Option.isSome_iff_exists.1 ((hg.live id).1 hl)
  obtain ⟨l, hnumbered, hmap, hfree⟩ := lobbyFree_spec hg.numbered he
  have hlook : ∀ id', l.deskmap.lookup id' = if id' = id then none
    else w.lobby.deskmap.lookup id' :=
    fun id' => by rw [hmap, lookup_erase_eq]
  set v := (lobbyFree w id).setDesk id d with hv
  have hlobby : v.lobby = l := by rw [hv, hfree]; rfl
  have hdbs : v.dbs = w.dbs := by
    rw [hv, hfree]
    unfold removeMydesk
    split <;> rfl
  have hdesks : ∀ id', id' ≠ id → v.desks id' = w.desks id' := by
    intro id' hne
    rw [hv, setDesk_ne _ d hne, hfree]
    unfold removeMydesk
    split <;> rfl
  have hgone : v.desks id = d := by rw [hv, setDesk_self]
  have hmydesk : v.mydesk me = (removeMydesk w id).mydesk me := by rw [hv, hfree]; rfl
  have hids : (v.mydesk me).ids = (w.mydesk me).ids.erase id := by
    rw [hmydesk, ids_removeMydesk hg hl]
  have howns : ∀ id', Owns v me id' ↔ id' ≠ id ∧ Owns w me id' := by
    intro id'
    rw [Owns, Owns, hlobby, hlook]
    by_cases hne : id' = id
    · simp [hne]
    · simp [hne]
  have hnot : (w.mydesk me).isAt id = false := not_isAt_of_empty hh hempty
  have hactive : (v.mydesk me).active = (w.mydesk me).active := by
    rw [hmydesk, active_removeMydesk hl hnot]
  refine ⟨⟨hlobby ▸ hnumbered, fun id' => ?_, fun id' e' he' => ?_, fun id' => ?_, ?_⟩,
    fun id' => ?_, ?_, ?_, ?_⟩
  · rw [hlobby, hlook]
    by_cases hne : id' = id
    · rw [hne, hgone, hd, if_pos rfl]
      simp
    · rw [hdesks id' hne, if_neg hne]
      exact hg.live id'
  · rw [hlobby, hlook] at he'
    by_cases hne : id' = id
    · rw [if_pos hne] at he'
      cases he'
    · rw [if_neg hne] at he'
      rw [hdesks id' hne]
      exact hg.creater id' e' he'
  · rw [hids, hg.once.mem_erase_iff, howns, hg.created]
  · rw [hids]
    exact hg.once.erase id
  · by_cases hne : id' = id
    · rw [hne, hgone]
      intro hlive
      rw [hd] at hlive
      cases hlive
    · rw [hdesks id' hne]
      exact ho id' hne
  · intro s
    rw [hdbs, hs s]
    refine exists_congr fun id' => ?_
    rw [howns]
    constructor
    · rintro ⟨hne, hrepr, hown⟩
      exact ⟨nofun, hrepr, fun h => hne (congrArg some h), hown⟩
    · rintro ⟨-, hrepr, hne, hown⟩
      exact ⟨fun h => hne (Option.some_inj.1 h), hrepr, hown⟩
  · rw [hactive, hdbs]
    exact hh.stored
  · intro r hr
    rw [hactive] at hr
    have hne : r.id ≠ id := by
      rw [MyDesk.isAt, hr] at hnot
      simpa using hnot
    rw [hdesks _ hne]
    exact hh.there r hr

/-- **The lobby frees the desk**, and the desk service drops it. -/
theorem At.lobby {r : Ret} (inp : Inp) (h : At w me id (.freeLobby r)) :
    Good (serve w id (w.desks id) inp (.freeLobby r)) me id
      (Job.out (w.desks id) inp (.seg (.freeLobby r))) := by
  obtain ⟨hst, hh, hempty⟩ := h.stage
  exact sound_lobbyFree h.rest.ground h.rest.others h.rest.live rfl hst hh hempty

end Lobby

/-! ### Handlers of a desk -/

section Handlers

variable {w w' : World} {me id : ℕ} {d : Desk} {pc : Pc} {o : Out} {r : Ret} {inps : List Inp}

/-- **One segment of a desk**, with the call before it. -/
theorem At.step (h : At w me id pc) (inp : Inp) :
    Good (serve w id (w.desks id) inp pc) me id (Job.out (w.desks id) inp (.seg pc)) := by
  cases pc with
  | sitAdd u seat | sitUse u | sitRecord u | sitCost u c | backRecord p c | backAdd p c
  | backQuery p c | backPush p c | backSave p | standRemove uid k => exact h.stay inp rfl
  | kickRemove uid k =>
      cases k with
      | free r => exact h.freeRemove inp
      | leave k =>
          cases k with
          | ret => exact h.stage.elim
          | dismissApply v => exact h.kickRemove inp
  | kickLeave uid k =>
      cases k with
      | free r => exact h.freeLeave inp
      | leave k =>
          cases k with
          | ret => exact h.stage.elim
          | dismissApply v => exact h.kickLeave inp
  | dismissAgent uid => exact h.dismissAgent inp
  | freeAgent u r => exact h.freeAgent inp
  | freeDismiss r => exact h.dismiss inp
  | freeGamedb r => exact h.gamedb inp
  | freeLobby r => exact h.lobby inp
  | _ => exact h.stage.elim

/-- **A handler of a desk, carried on to its end**: one step for each segment. -/
theorem Good.finish (h : Good w me id o) (hf : finish w id o inps = some (w', r)) :
    Sound w' me := by
  induction inps generalizing w o with
  | nil =>
      unfold Mydesk.finish at hf
      cases hres : o.res with
      | ret r' =>
          rw [Good, hres] at h
          rw [hres] at hf
          obtain ⟨rfl, -⟩ := Prod.mk.inj (Option.some_inj.1 hf)
          exact h
      | wait pc =>
          rw [hres] at hf
          cases hf
  | cons inp inps ih =>
      unfold Mydesk.finish at hf
      cases hres : o.res with
      | ret r' =>
          rw [Good, hres] at h
          rw [hres] at hf
          obtain ⟨rfl, -⟩ := Prod.mk.inj (Option.some_inj.1 hf)
          exact h
      | wait pc =>
          rw [Good, hres] at h
          rw [hres] at hf
          have hstep := At.step h inp
          rw [setDesk_self] at hstep
          exact ih hstep hf

/-- A handler that answers at once. -/
theorem finish_ret (w : World) (id : ℕ) (d : Desk) (r : Ret) (inps : List Inp) :
    finish w id (.ret d r) inps = some (w.setDesk id d, r) := by
  cases inps <;> rfl

end Handlers

end Halieutics.Mydesk
