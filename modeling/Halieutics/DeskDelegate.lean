/-
**The delegate of the androids.**

The androids have no client of their own: a user who is online reports their hits.  `d.androidid`
names him.  `joinin` and `desk.sceneinfo` appoint whoever comes when there is no delegate, and
`desk.afk` appoints another when the delegate goes away; `desk.leave` forgets to.

Main definitions:

* `Halieutics.Job.social` — the work of `join`, `sitdown`, `standup`, `leave`, `afk` and
  `sceneinfo`;
* `Halieutics.Delegated` — **the delegate is online and at the desk**, and there is one whenever
  somebody is online;
* `Halieutics.KeepsDelegate` — the delegate does not leave, and no android asks for the scene of a
  desk without one.

Main results:

* `Halieutics.modest_of_reach` — what those operations leave behind never drops anybody else;
* `Halieutics.delegated_of_keepsDelegate` — **the desk keeps a delegate** in every run of those
  operations that meets the condition;
* `Halieutics.delegate_leaves` — the delegate leaves, and is still the delegate.
-/

import Halieutics.DeskCapacity

set_option relaxedAutoImplicit false
set_option autoImplicit false

namespace Halieutics

open LuaTable Coroutine

/-! ### The operations of the users -/

/-- The work of `join`, `sitdown`, `standup`, `leave`, `afk` and `sceneinfo`, and of `new_desk`. -/
def Job.social : Job → Bool
  | .req (.join _ _) | .req (.sitdown _ _) | .req (.standup _) | .req (.leave _) | .req (.afk _)
  | .req (.sceneinfo _) => true
  | .seg (.begin _ _) => false
  | .seg _ => true
  | _ => false

/-- A walk for a user who stands up for himself. -/
def Walk.own (w : Walk) : Bool :=
  match w.k with
  | .standup _ .ret => true
  | _ => false

/-- The points of those operations, of `new_desk` before the first game, and of queued commands. -/
def Pc.modest : Pc → Bool
  | .monitor | .ready | .begin _ _ => true
  | .joinAdd _ | .joinDb _ | .sitAdd _ _ | .sitUse _ | .sitRecord _ | .sitCost _ _ => true
  | .backRecord w _ | .backAdd w _ | .backQuery w _ | .backPush w _ | .backSave w => w.own
  | .standRemove _ .ret | .kickRemove _ (.leave .ret) | .kickLeave _ (.leave .ret) => true
  | _ => false

section Modest

variable {d : Desk} {o : Out}

/-- What is left behind is at such points. -/
def Out.modest (o : Out) : Prop := ∀ pc ∈ o.pcs, pc.modest = true

theorem modest_ret (d : Desk) (r : Ret) : (Out.ret d r).modest := fun _ h => by cases h

theorem modest_wait (d : Desk) {pc : Pc} (h : pc.modest = true) : (Out.wait d pc).modest := by
  intro pc' hpc'
  obtain rfl := List.mem_singleton.1 hpc'
  exact h

theorem modest_walk (d : Desk) (w : Walk) (cs : List Cost) (h : w.own = true) :
    (walk d w cs).modest := by
  obtain ⟨w', pc, hw, hk, -, -, hpc⟩ := walk_cases d w cs
  have hown : w'.own = true := by
    unfold Walk.own
    rw [hk]
    exact h
  rw [hw]
  rcases hpc with ⟨c, rfl⟩ | rfl
  · exact modest_wait d hown
  · exact modest_wait d hown

theorem modest_actstandup (d : Desk) (seat : ℤ) : (actstandup d seat .ret).modest := by
  unfold actstandup
  split
  · exact modest_ret d _
  · split
    · exact modest_ret d _
    · exact modest_wait _ rfl

theorem modest_standup (d : Desk) (uid : ℕ) : (standup d uid .ret).modest := by
  unfold standup
  split
  · exact modest_ret d _
  · split
    · exact modest_ret d _
    · split
      · exact modest_ret d _
      · rename_i u _
        split
        · rcases backRoomcard_cases d (some (d.objs u).id) (.standup u .ret) with h | ⟨-, h⟩
          · rw [h]
            exact modest_actstandup d _
          · rw [h]
            exact modest_walk d _ _ rfl
        · exact modest_actstandup d _

theorem modest_leave (d : Desk) (uid : ℕ) : (leave d uid .ret).modest := by
  unfold leave
  split
  · exact modest_ret d _
  · split
    · exact modest_ret d _
    · split
      · exact modest_ret d _
      · exact modest_wait _ rfl
      · exact modest_wait _ rfl

theorem modest_sitEnd (d : Desk) (u : Ref) : (sitEnd d u).modest := modest_ret _ _

theorem modest_sitSeated (d : Desk) (u : Ref) (seat : ℤ) : (sitSeated d u seat).modest := by
  unfold sitSeated
  dsimp only
  split
  · exact modest_wait _ rfl
  · exact modest_sitEnd _ u

theorem modest_direct (d : Desk) (inp : Inp) {r : Req} (h : (Job.req r).social = true) :
    (direct d inp r).modest := by
  cases r with
  | join uid android =>
      rcases join_cases d uid android inp with ⟨r, hr⟩ | ⟨user, -, -, -, -, hr⟩
      · rw [direct, hr]
        exact modest_ret d r
      · rw [direct, hr]
        exact modest_wait _ rfl
  | sitdown uid withseat =>
      rcases sitdown_cases d uid withseat with ⟨r, hr⟩ | ⟨u, seat, rest, -, -, -, -, hr⟩
      · rw [direct, hr]
        exact modest_ret d r
      · rw [direct, hr]
        exact modest_wait _ rfl
  | standup uid => exact modest_standup d uid
  | leave uid => exact modest_leave d uid
  | afk uid =>
      dsimp only [direct]
      unfold afk
      split
      · exact modest_ret d _
      · split
        · exact modest_ret d _
        · exact modest_ret _ _
  | sceneinfo uid =>
      dsimp only [direct]
      unfold sceneinfo
      repeat' split
      all_goals exact modest_ret _ _
  | _ => cases h

/-- **The segments of those operations leave nothing else behind.** -/
theorem modest_segment (d : Desk) (inp : Inp) {pc : Pc} (hpc : pc.modest = true)
    (hs : (Job.seg pc).social = true) (hm : pc = .monitor → d.sync.waiting = none)
    (hr : pc ≠ .ready) : (segment d inp pc).modest := by
  cases pc with
  | monitor =>
      rcases sleepOn_cases d .ready .ready with ⟨-, h⟩ | ⟨hw, -⟩
      · change (sleepOn d .ready .ready).modest
        rw [h]
        exact modest_wait _ rfl
      · exact absurd (hm rfl) hw
  | ready => exact absurd rfl hr
  | «begin» u cmd => cases hs
  | joinAdd u => exact modest_wait _ rfl
  | joinDb u => exact modest_ret d _
  | sitAdd u seat => exact modest_sitSeated d u seat
  | sitUse u =>
      dsimp only [segment]
      split
      · exact modest_wait _ rfl
      · exact modest_ret d _
  | sitRecord u =>
      dsimp only [segment]
      split
      · exact modest_wait _ rfl
      · exact modest_ret d _
  | sitCost u c => exact modest_sitEnd d u
  | backRecord w c => exact modest_wait _ hpc
  | backAdd w c => exact modest_wait _ hpc
  | backQuery w c =>
      dsimp only [segment]
      split
      · exact modest_wait _ hpc
      · exact modest_walk d _ _ hpc
  | backPush w c =>
      dsimp only [segment]
      split
      · exact modest_ret d _
      · exact modest_walk d _ _ hpc
  | backSave w =>
      obtain ⟨tab, userid, i, costs, k⟩ := w
      cases k with
      | standup u k =>
          cases k with
          | ret => exact modest_actstandup _ _
          | dismissApply v => cases hpc
      | free r => cases hpc
  | standRemove uid k =>
      cases k with
      | ret => exact modest_ret d _
      | dismissApply v => cases hpc
  | kickRemove uid k =>
      refine modest_wait _ ?_
      cases k with
      | leave k => cases k <;> exact hpc
      | free r => cases hpc
  | kickLeave uid k =>
      cases k with
      | leave k =>
          cases k with
          | ret => exact modest_ret d _
          | dismissApply v => cases hpc
      | free r => cases hpc
  | _ => cases hpc

end Modest

/-! ### Nobody is dropped who did not ask to leave -/

/-- **Only those operations are under way**, and `new_desk` waits for the master. -/
structure Modest (d : Desk) (l : List Pc) : Prop where
  points : ∀ pc ∈ l, pc.modest = true
  waits : .ready ∈ l → d.sync.waiting = some .ready

theorem Modest.perm {d : Desk} {l l' : List Pc} (hp : l.Perm l') (h : Modest d l) : Modest d l' :=
  ⟨fun pc hpc => h.points pc (hp.mem_iff.2 hpc), fun hr => h.waits (hp.mem_iff.2 hr)⟩

/-- Those operations do not release the barrier. -/
theorem releases_of_social {d : Desk} {j : Job} (hj : j.social = true) : releases d j = false := by
  cases j with
  | req r => cases r <;> first | rfl | cases hj
  | cmd u c => cases hj
  | seg pc => cases pc <;> first | rfl | cases hj

section Runs

variable {C : Sys → Ev → Prop} {id creater timelimit : ℕ} {pay : Pay} {s s' : Sys} {e : Ev}

/-- **In a run of those operations nothing else is ever under way.** -/
theorem modest_of_reach (hC : ∀ s e, C s e → Under (fun _ j => j.social = true) s e)
    (h : desk.Reach C (created id creater pay timelimit) s) : Modest s.shared (pcs s) := by
  have hone := h.and_inv (P := fun s => OneNewDesk s.shared (pcs s)) fun _ hs => one_newDesk hs
  refine desk_inv (I := Modest) ?_ ?_ ?_ ?_ ?_ hone
  · exact fun d l l' hp hI => hI.perm hp
  · exact fun d l b q hI => ⟨hI.points, hI.waits⟩
  · intro d l u c hI
    refine ⟨fun pc hpc => ?_, fun hr => ?_⟩
    · rcases List.mem_cons.1 hpc with rfl | hpc
      · rfl
      · exact hI.points pc hpc
    · rcases List.mem_cons.1 hr with hr | hr
      · cases hr
      · exact hI.waits hr
  · refine ⟨fun pc hpc => ?_, fun hr => ?_⟩
    · obtain rfl := List.mem_singleton.1 hpc
      rfl
    · cases List.mem_singleton.1 hr
  · intro s e j inp rest ⟨hc, hnew⟩ hj hp hen hI
    have hsocial : j.social = true := by
      have hu := hC s e hc
      rw [Under, hj] at hu
      exact hu
    have hnew := hnew.perm hp
    have hnr : j ≠ .seg .ready := by
      rintro rfl
      have hw := hI.waits (List.mem_append_left _ (List.mem_singleton.2 rfl))
      have hen := hen .ready (List.mem_singleton.2 rfl)
      simp [Pc.enabled, hw] at hen
    have hout : (j.out s.shared inp).modest := by
      cases j with
      | req r => exact modest_direct s.shared inp hsocial
      | cmd u c => cases hsocial
      | seg pc =>
          have hmem : pc ∈ Job.pcs (.seg pc) ++ rest :=
            List.mem_append_left _ (List.mem_singleton.2 rfl)
          refine modest_segment _ inp (hI.points pc hmem) hsocial ?_ fun h => hnr (h ▸ rfl)
          rintro rfl
          exact (executed_life s.shared inp .monitor).2.2.trans (hnew.timely .monitor hmem).2
    refine ⟨fun pc hpc => ?_, fun hr => ?_⟩
    · rcases List.mem_append.1 hpc with hpc | hpc
      · exact hout pc hpc
      · exact hI.points pc (List.mem_append_right _ hpc)
    · by_cases hmon : j = .seg .monitor
      · subst hmon
        have htime := (hnew.timely .monitor (List.mem_append_left _ (List.mem_singleton.2 rfl))).2
        have hwait : (executed s.shared inp .monitor).sync.waiting = none :=
          (executed_life s.shared inp .monitor).2.2.trans htime
        obtain ⟨d', hs', hl⟩ := segment_monitor (executed s.shared inp .monitor) inp hwait
        change (segment (executed s.shared inp .monitor) inp .monitor).d.sync.waiting = _
        rw [hs']
        exact congrArg Life.waiting hl
      · have hother : ∀ pc ∈ j.pcs, pc.newDesk = false := by
          intro pc hpc
          have hpt := hI.points pc (List.mem_append_left _ hpc)
          cases j with
          | seg pc' =>
              obtain rfl := List.mem_singleton.1 hpc
              cases pc <;> first | rfl | exact absurd rfl hnr | exact absurd rfl hmon | cases hpt
          | _ => cases hpc
        rcases List.mem_append.1 hr with hr | hr
        · have hfalse := (steady_job s.shared inp hother).pcs _ hr
          cases hfalse
        · exact waiting_job s.shared inp
            (fun pc hpc => hnew.timely pc (List.mem_append_left _ hpc)) hother
            (releases_of_social hsocial) (hI.waits (List.mem_append_right _ hr))

end Runs

/-! ### The delegate -/

/-- **The delegate is online and at the desk**, and there is one whenever somebody is online. -/
def People.Delegated (p : People) : Prop :=
  match p.androidid with
  | none => ∀ uid u, p.usermap.lookup uid = some u → p.online u = false
  | some a => ∃ u, p.usermap.lookup a = some u ∧ p.online u = true

/-- **When the desk keeps its delegate**: the delegate does not leave, unless he is refused because
he is still seated, and no android asks for the scene of a desk without a delegate. -/
def KeepsDelegate (d : Desk) : Job → Prop
  | .req (.leave uid) => d.androidid = some uid →
      (d.usermap.lookup uid).any (fun u => (d.objs u).audience == some false) = true
  | .req (.sceneinfo uid) => d.androidid = none →
      (d.usermap.lookup uid).all (fun u => !(d.objs u).android) = true
  | _ => True

instance (d : Desk) (j : Job) : Decidable (KeepsDelegate d j) := by
  unfold KeepsDelegate
  split <;> infer_instance

section Delegate

variable {p : People} {l rest : List (Ref × ℤ)} {d : Desk} {j : Job} {m : Move}

theorem delegated_none (h : p.androidid = none) :
    p.Delegated ↔ ∀ uid u, p.usermap.lookup uid = some u → p.online u = false := by
  unfold People.Delegated
  rw [h]

theorem delegated_some {a : ℕ} (h : p.androidid = some a) :
    p.Delegated ↔ ∃ u, p.usermap.lookup a = some u ∧ p.online u = true := by
  unfold People.Delegated
  rw [h]

/-- Nothing that matters for the delegate changes. -/
theorem People.Delegated.congr {p' : People} (hmap : p'.usermap = p.usermap)
    (hid : p'.androidid = p.androidid)
    (hobjs : ∀ uid u, p.usermap.lookup uid = some u → p'.online u = p.online u)
    (h : p.Delegated) : p'.Delegated := by
  cases ha : p.androidid with
  | none =>
      rw [delegated_none ha] at h
      rw [delegated_none (hid.trans ha), hmap]
      exact fun uid u hu => (hobjs uid u hu).trans (h uid u hu)
  | some a =>
      rw [delegated_some ha] at h
      rw [delegated_some (hid.trans ha), hmap]
      obtain ⟨u, hu, hon⟩ := h
      exact ⟨u, hu, (hobjs a u hu).trans hon⟩

/-- Whether users are online does not change with a seat or a flag. -/
theorem online_update {p' : People} {u : Ref} {x : User}
    (hobjs : p'.objs = Function.update p.objs u x)
    (hx : x.afk = (p.objs u).afk ∧ x.android = (p.objs u).android) (v : Ref) :
    p'.online v = p.online v := by
  unfold People.online
  rw [hobjs]
  by_cases hv : v = u
  · subst hv
    rw [Function.update_self, hx.1, hx.2]
  · rw [Function.update_of_ne hv]

/-- A seat or a flag of a user is nothing to the delegate. -/
theorem delegated_update {p' : People} {u : Ref} {x : User}
    (hobjs : p'.objs = Function.update p.objs u x)
    (hx : x.afk = (p.objs u).afk ∧ x.android = (p.objs u).android) (hmap : p'.usermap = p.usermap)
    (hid : p'.androidid = p.androidid) (h : p.Delegated) : p'.Delegated :=
  h.congr hmap hid fun _ v _ => online_update hobjs hx v

/-- `changeandroidid` appoints a delegate whenever it looks for one. -/
theorem delegated_delegate {uid : ℕ} (hids : ∀ k u, p.usermap.lookup k = some u → (p.objs u).id = k)
    (h : ∀ a, p.androidid = some a → a ≠ uid →
      ∃ u, p.usermap.lookup a = some u ∧ p.online u = true) : (p.delegate uid).Delegated := by
  unfold People.delegate
  split
  · cases hf : (vals p.usermap).find? p.online with
    | none =>
        rw [delegated_none rfl]
        intro k u hu
        exact Bool.eq_false_iff.2 (List.find?_eq_none.1 hf u (mem_vals.2 ⟨k, hu⟩))
    | some u =>
        rw [delegated_some rfl]
        obtain ⟨k, hk⟩ := mem_vals.1 (List.mem_of_find?_eq_some hf)
        refine ⟨u, ?_, List.find?_some hf⟩
        change p.usermap.lookup (p.objs u).id = some u
        rw [hids k u hk]
        exact hk
  · rename_i hne
    obtain ⟨hnone, hother⟩ := not_or.1 hne
    obtain ⟨a, ha⟩ := Option.ne_none_iff_exists'.1 hnone
    rw [delegated_some ha]
    refine h a ha ?_
    rintro rfl
    exact hother ha

/-- A user joins: he becomes the delegate when there is none and he is no android. -/
theorem delegated_join {user : User} (hafk : user.afk = false)
    (hnew : p.usermap.lookup user.id = none)
    (hknown : ∀ k u, p.usermap.lookup k = some u → u < p.nobj)
    (h : p.Delegated) : (Move.apply p (.join user)).Delegated := by
  -- who was there before is as he was
  have hold : ∀ k u, p.usermap.lookup k = some u →
      (Move.apply p (.join user)).usermap.lookup k = some u ∧
      (Move.apply p (.join user)).online u = p.online u := by
    intro k u hu
    have hne : k ≠ user.id := by
      rintro rfl
      rw [hnew] at hu
      cases hu
    refine ⟨(AList.lookup_insert_ne hne).trans hu, ?_⟩
    have hobj : (Move.apply p (.join user)).objs u = p.objs u :=
      Function.update_of_ne (Nat.ne_of_lt (hknown k u hu)) _ _
    unfold People.online
    rw [hobj]
  have honline : (Move.apply p (.join user)).online p.nobj = !user.android := by
    have hobj : (Move.apply p (.join user)).objs p.nobj = user := Function.update_self _ _ _
    unfold People.online
    rw [hobj, hafk]
    exact Bool.true_and _
  cases ha : p.androidid with
  | some a =>
      have hid : (Move.apply p (.join user)).androidid = some a := by
        change (if !user.android && p.androidid.isNone then some user.id else p.androidid) = _
        rw [ha, Option.isNone_some, Bool.and_false, if_neg Bool.false_ne_true]
      rw [delegated_some ha] at h
      rw [delegated_some hid]
      obtain ⟨u, hu, hon⟩ := h
      exact ⟨u, (hold a u hu).1, ((hold a u hu).2).trans hon⟩
  | none =>
      have hid : (Move.apply p (.join user)).androidid = if !user.android then some user.id
        else none := by
        change (if !user.android && p.androidid.isNone then some user.id else p.androidid) = _
        rw [ha, Option.isNone_none, Bool.and_true]
      cases hand : user.android with
      | false =>
          rw [hand] at hid honline
          rw [delegated_some hid]
          exact ⟨p.nobj, AList.lookup_insert _, honline⟩
      | true =>
          rw [hand] at hid honline
          rw [delegated_none ha] at h
          rw [delegated_none hid]
          intro k u hu
          change (p.usermap.insert user.id p.nobj).lookup k = some u at hu
          rw [lookup_insert_eq] at hu
          split at hu
          · obtain rfl := Option.some_inj.1 hu
            exact honline
          · exact ((hold k u hu).2).trans (h k u hu)

/-- A user leaves who is not the delegate. -/
theorem delegated_drop {u : Ref} (hu : p.androidid ≠ some (p.objs u).id) (h : p.Delegated) :
    (Move.apply p (.drop u)).Delegated := by
  have honline : ∀ v, (Move.apply p (.drop u)).online v = p.online v := online_update rfl ⟨rfl, rfl⟩
  cases ha : p.androidid with
  | none =>
      rw [delegated_none ha] at h
      rw [delegated_none (p := Move.apply p (.drop u)) ha]
      intro k v hv
      change (p.usermap.erase (p.objs u).id).lookup k = some v at hv
      rw [lookup_erase_eq] at hv
      split at hv
      · cases hv
      · exact (honline v).trans (h k v hv)
  | some a =>
      have hne : a ≠ (p.objs u).id := fun he => hu (ha.trans (congrArg some he))
      rw [delegated_some ha] at h
      rw [delegated_some (p := Move.apply p (.drop u)) ha]
      obtain ⟨v, hv, hon⟩ := h
      exact ⟨v, (AList.lookup_erase_ne hne).trans hv, (honline v).trans hon⟩

/-- A user goes away: another delegate is looked for when he was the delegate. -/
theorem delegated_afk {uid : ℕ} {u : Ref} (hu : p.usermap.lookup uid = some u)
    (hids : ∀ k v, p.usermap.lookup k = some v → (p.objs v).id = k) (h : p.Delegated) :
    (Move.apply p (.afk uid u)).Delegated := by
  have hid : ∀ v, ((p.setUser u fun x => { x with afk := true }).objs v).id =
    (p.objs v).id := fun v =>
    id_people p u v fun _ => rfl
  refine delegated_delegate (p := p.setUser u fun x => { x with afk := true })
    (fun k v hv => (hid v).trans (hids k v hv)) fun a ha hne => ?_
  obtain ⟨v, hv, hon⟩ := (delegated_some (p := p) ha).1 h
  refine ⟨v, hv, ?_⟩
  -- the delegate is somebody else
  have hvu : v ≠ u := by
    rintro rfl
    exact hne ((hids a v hv).symm.trans (hids uid v hu))
  have hobj : (p.setUser u fun x => { x with afk := true }).objs v = p.objs v :=
    objs_people_ne p _ hvu
  unfold People.online at hon ⊢
  rw [hobj]
  exact hon

/-- A user comes back: he becomes the delegate when there is none. -/
theorem delegated_scene {uid : ℕ} {u : Ref} (hu : p.usermap.lookup uid = some u)
    (hhuman : p.androidid = none → (p.objs u).android = false) (h : p.Delegated) :
    (Move.apply p (.scene uid u)).Delegated := by
  have hself : (Move.apply p (.scene uid u)).online u = !(p.objs u).android := by
    have hobj : (Move.apply p (.scene uid u)).objs u = { p.objs u with afk := false } :=
      Function.update_self _ _ _
    unfold People.online
    rw [hobj]
    exact Bool.true_and _
  cases ha : p.androidid with
  | none =>
      have hid : (Move.apply p (.scene uid u)).androidid = some uid := by
        change some (p.androidid.getD uid) = _
        rw [ha]
        rfl
      rw [delegated_some hid]
      exact ⟨u, hu, by rw [hself, hhuman ha]; rfl⟩
  | some a =>
      have hid : (Move.apply p (.scene uid u)).androidid = some a := by
        change some (p.androidid.getD uid) = _
        rw [ha]
        rfl
      obtain ⟨v, hv, hon⟩ := (delegated_some ha).1 h
      rw [delegated_some hid]
      refine ⟨v, hv, ?_⟩
      by_cases hvu : v = u
      · subst hvu
        rw [hself]
        exact (Bool.and_eq_true_iff.1 hon).2
      · have hobj : (Move.apply p (.scene uid u)).objs v = p.objs v := Function.update_of_ne hvu _ _
        unfold People.online at hon ⊢
        rw [hobj]
        exact hon

/-- **Every move keeps the delegate**, when nobody is dropped who did not ask to leave and the work
meets the condition. -/
theorem delegated_move (hm : m.May d j) (he : Entered d.people (m.before ++ rest))
    (hparts : j.parts d = false) (hk : KeepsDelegate d j) (h : d.people.Delegated) :
    (m.apply d.people).Delegated := by
  have hids : ∀ k v, d.people.usermap.lookup k = some v → (d.people.objs v).id = k := fun k v hv =>
    (he.ids k v hv).1
  cases m with
  | stay => exact h
  | join user =>
      obtain ⟨-, -, -, -, hafk, -, -, hnew, -⟩ := hm
      exact delegated_join hafk hnew (fun k u hu => (he.ids k u hu).2) h
  | assign u seat free => exact delegated_update rfl ⟨rfl, rfl⟩ rfl rfl h
  | sit u seat b => exact delegated_update rfl ⟨rfl, rfl⟩ rfl rfl h
  | unseat seat u => exact delegated_update rfl ⟨rfl, rfl⟩ rfl rfl h
  | ready u => exact delegated_update rfl ⟨rfl, rfl⟩ rfl rfl h
  | drop u =>
      obtain ⟨-, hp | ⟨uid, rfl, hu, haud⟩⟩ := hm
      · rw [hparts] at hp
        cases hp
      · refine delegated_drop ?_ h
        rw [hids uid u hu]
        intro hdel
        have hseat := hk hdel
        rw [hu] at hseat
        exact haud (beq_iff_eq.1 hseat)
  | afk uid u => exact delegated_afk hm.2 hids h
  | scene uid u =>
      obtain ⟨rfl, hu⟩ := hm
      refine delegated_scene hu (fun hnone => ?_) h
      have hhuman := hk hnone
      rw [hu] at hhuman
      exact Bool.not_eq_true' _ ▸ hhuman

end Delegate

/-! ### Runs -/

/-- The social work of a modest desk drops nobody who did not ask to leave. -/
theorem parts_of_modest {d : Desk} {j : Job} (hj : j.social = true)
    (hp : ∀ pc ∈ j.pcs, pc.modest = true) (hr : j ≠ .seg .ready)
    (hm : j = .seg .monitor → d.sync.waiting = none) : j.parts d = false := by
  cases j with
  | req r => cases r <;> first | rfl | cases hj
  | cmd u c => cases hj
  | seg pc =>
      have hpc := hp pc (List.mem_singleton.2 rfl)
      cases pc with
      | monitor => simp [Job.parts, Job.command, hm rfl]
      | ready => exact absurd rfl hr
      | backRecord w c | backAdd w c | backQuery w c | backPush w c | backSave w =>
          obtain ⟨tab, userid, i, costs, k⟩ := w
          cases k with
          | standup u k => cases k <;> first | rfl | cases hpc
          | free r => cases hpc
      | standRemove uid k => cases k <;> first | rfl | cases hpc
      | kickRemove uid k | kickLeave uid k =>
          cases k with
          | leave k => rfl
          | free r => cases hpc
      | «begin» u cmd => cases hj
      | _ => first | rfl | cases hpc

section Runs

variable {id creater timelimit : ℕ} {pay : Pay} {s : Sys}

/-- **The desk keeps a delegate who is online**, in every run of the operations of the users in
which the delegate does not leave, and no android asks for the scene of a desk without one. -/
theorem delegated_of_keepsDelegate
    (h : desk.Reach (Under fun s j => j.social = true ∧ KeepsDelegate s.shared j)
      (created id creater pay timelimit) s) : s.shared.people.Delegated := by
  have hinv := h.and_inv (P := fun s => Modest s.shared (pcs s) ∧ OneNewDesk s.shared (pcs s))
    fun s hs => by
    refine ⟨modest_of_reach (fun s e hC => ?_) hs, one_newDesk hs⟩
    unfold Under at hC ⊢
    split
    · trivial
    · rename_i j hj
      rw [hj] at hC
      exact hC.1
  refine (people_inv (I := fun p l => Entered p l ∧ p.Delegated) ?_ ?_ ?_ hinv).2
  · exact fun p l l' hp hI => ⟨hI.1.perm hp, hI.2⟩
  · refine ⟨entered_created, ?_⟩
    intro uid u hu
    cases hu
  · rintro s e j inp m rest ⟨hC, hmod, hone⟩ hj hpcs hm hI
    rw [Under, hj] at hC
    refine ⟨hI.1.move hm, delegated_move hm hI.1 ?_ hC.2 hI.2⟩
    refine parts_of_modest hC.1 (fun pc hpc => hmod.points pc (hpcs pc hpc).1) ?_ ?_
    · rintro rfl
      obtain ⟨hmem, hen⟩ := hpcs .ready (List.mem_singleton.2 rfl)
      simp [Pc.enabled, hmod.waits hmem] at hen
    · rintro rfl
      exact (hone.timely .monitor (hpcs .monitor (List.mem_singleton.2 rfl)).1).2

/-- User 1 is the delegate; user 2 comes and leaves again. -/
theorem delegated_of_keepsDelegate_once :
    ∃ s, desk.Reach (Under fun s j => j.social = true ∧ KeepsDelegate s.shared j)
      (created 100001 1 ⟨true, 3⟩ 30) s ∧ s.shared.androidid = some 1 ∧
      s.shared.people.Delegated := by
  obtain ⟨s, hs, hp⟩ := Machine.exists_reach
    ([.call (.join 1 false) {}, .resume 1 {}, .resume 1 {}, .call (.join 2 false) {}, .resume 1 {},
      .resume 1 {}, .call (.leave 2) {}, .resume 1 {}, .resume 1 {}])
    (p := fun s => decide (s.shared.androidid = some 1))
    (C := Under fun s j => j.social = true ∧ KeepsDelegate s.shared j)
    (i := created 100001 1 ⟨true, 3⟩ 30) (M := desk) (by decide +kernel)
  exact ⟨s, hs, of_decide_eq_true hp, delegated_of_keepsDelegate hs⟩

/-- **The delegate leaves, and stays the delegate**, although user 2 is online. -/
theorem delegate_leaves :
    ¬ ∀ (id creater timelimit : ℕ) (pay : Pay) (s : Sys),
      desk.Reach (Under fun _ j => j.social = true) (created id creater pay timelimit) s →
        s.shared.people.Delegated := by
  intro hall
  obtain ⟨s, hs, hp⟩ := Machine.exists_reach
    ([.call (.join 1 false) {}, .resume 1 {}, .resume 1 {}, .call (.join 2 false) {}, .resume 1 {},
      .resume 1 {}, .call (.leave 1) {}, .resume 1 {}, .resume 1 {}])
    (p := fun s => decide (s.shared.androidid = some 1 ∧ s.shared.usermap.lookup 1 = none))
    (C := Under fun _ j => j.social = true) (i := created 100001 1 ⟨true, 3⟩ 30) (M := desk)
    (by decide +kernel)
  obtain ⟨ha, hnone⟩ := of_decide_eq_true hp
  obtain ⟨u, hu, -⟩ := (delegated_some (p := s.shared.people) ha).1 (hall _ _ _ _ s hs)
  exact absurd (hnone.symm.trans hu) (by simp)

end Runs

end Halieutics
