/-
**How many users a desk has.**

`desk.join` refuses a user when the players in `d.users` and the audience in `d.audiences` fill the
desk; the users themselves are in `d.usermap`.  A user who sits down or stands up is in both tables
for a while, and `kick_user` takes him out of `d.usermap` first, so that the number that is compared
is never less than the number of users.

Main definitions:

* `Halieutics.Entered` — everybody is entered under his number;
* `Halieutics.Counted` — every user is counted as a player or as an audience, and there are not too
  many;
* `Halieutics.Capacity` — **the capacity of a desk**.

Main results:

* `Halieutics.Entered.move`, `Halieutics.Counted.move` — every move keeps them;
* `Halieutics.capacity_of_reach` — **a desk never has more users than it has room for, and nobody is
  entered twice**, whatever overlaps.
-/

import Halieutics.DeskPeople

set_option relaxedAutoImplicit false
set_option autoImplicit false

namespace Halieutics

open LuaTable Coroutine

/-! ### The invariants -/

/-- **Everybody is entered under his number.** -/
structure Entered (p : People) (l : List (Ref × ℤ)) : Prop where
  ids : ∀ uid u, p.usermap.lookup uid = some u → (p.objs u).id = uid ∧ u < p.nobj
  seated : ∀ u ∈ vals p.users, u < p.nobj
  pending : ∀ q ∈ l, q.1 < p.nobj

/-- The free seats, the taken seats and the pending ones are all the seats there are. -/
def People.Parted (p : People) (l : List (Ref × ℤ)) : Prop :=
  (p.freeseats ++ (p.users.keys ++ l.map Prod.snd)).Nodup

/-- A user is counted: he is an audience, or has a seat. -/
def People.counts (p : People) (uid : ℕ) : Prop :=
  uid ∈ p.audiences ∨ ∃ u ∈ vals p.users, (p.objs u).id = uid

/-- **Every user is counted as a player or as an audience, and there are not too many.** -/
structure Counted (p : People) (l : List (Ref × ℤ)) : Prop where
  parted : p.Parted l
  counts : ∀ uid ∈ p.usermap, p.counts uid
  bound : p.usermap.keys.length ≤ p.maxplayer + p.maxaudience

section Moves

variable {p : People} {l rest : List (Ref × ℤ)} {d : Desk} {j : Job} {m : Move}

theorem objs_people_ne (p : People) (f : User → User) {u v : Ref} (h : v ≠ u) :
    (p.setUser u f).objs v = p.objs v := Function.update_of_ne h _ _

theorem id_people (p : People) (u v : Ref) {f : User → User} (hf : ∀ x, (f x).id = x.id) :
    ((p.setUser u f).objs v).id = (p.objs v).id := by
  by_cases hv : v = u
  · subst hv
    exact (congrArg User.id (Function.update_self _ _ _)).trans (hf _)
  · rw [objs_people_ne p f hv]

/-- **A user object keeps its number.** -/
theorem Move.id_apply (m : Move) (p : People) {u : Ref} (hu : u < p.nobj) :
    ((m.apply p).objs u).id = (p.objs u).id := by
  by_cases h : u = (m.change p).1
  · subst h
    rw [m.objs_change]
    cases m with
    | join user => exact absurd hu (Nat.lt_irrefl _)
    | _ => rfl
  · rw [m.objs_ne p h]

theorem Move.nobj_le (m : Move) (p : People) : p.nobj ≤ (m.apply p).nobj := by
  cases m with
  | join user => exact Nat.le_succ _
  | afk uid v =>
      rw [Move.apply, delegate_eq]
      exact Nat.le_refl _
  | _ => exact Nat.le_refl _

theorem Entered.perm {l' : List (Ref × ℤ)} (hp : l.Perm l') (h : Entered p l) : Entered p l' :=
  ⟨h.ids, h.seated, fun q hq => h.pending q (hp.mem_iff.2 hq)⟩

/-- The users after a move were users before, but for the one who joins. -/
theorem Move.May.usermap (h : m.May d j) {uid : ℕ} {u : Ref}
    (hu : (m.apply d.people).usermap.lookup uid = some u) :
    d.usermap.lookup uid = some u ∨ ∃ user, m = .join user ∧ uid = user.id ∧ u = d.nobj := by
  cases m with
  | join user =>
      change (d.usermap.insert user.id d.nobj).lookup uid = some u at hu
      rw [lookup_insert_eq] at hu
      split at hu
      · rename_i he
        exact Or.inr ⟨user, rfl, he, (Option.some_inj.1 hu).symm⟩
      · exact Or.inl hu
  | drop v =>
      change (d.usermap.erase (d.objs v).id).lookup uid = some u at hu
      rw [lookup_erase_eq] at hu
      split at hu
      · cases hu
      · exact Or.inl hu
  | afk uid' v =>
      rw [Move.apply, delegate_eq] at hu
      exact Or.inl hu
  | _ => exact Or.inl hu

/-- Those who have a seat, or are about to, did before a move, or have just been assigned one. -/
theorem Move.May.seated (h : m.May d j) {u : Ref} (hu : u ∈ vals (m.apply d.people).users) :
    u ∈ vals d.users ∨ ∃ seat, (u, seat) ∈ m.before := by
  cases m with
  | sit v seat b =>
      obtain ⟨k, hk⟩ := mem_vals.1 hu
      change (d.users.insert seat v).lookup k = some u at hk
      rw [lookup_insert_eq] at hk
      split at hk
      · obtain rfl := Option.some_inj.1 hk
        exact Or.inr ⟨seat, List.mem_singleton.2 rfl⟩
      · exact Or.inl (mem_vals.2 ⟨k, hk⟩)
  | unseat seat v =>
      obtain ⟨k, hk⟩ := mem_vals.1 hu
      change (d.users.erase seat).lookup k = some u at hk
      rw [lookup_erase_eq] at hk
      split at hk
      · cases hk
      · exact Or.inl (mem_vals.2 ⟨k, hk⟩)
  | afk uid' v =>
      rw [Move.apply, delegate_eq] at hu
      exact Or.inl hu
  | _ => exact Or.inl hu

theorem Entered.move (hm : m.May d j) (h : Entered d.people (m.before ++ rest)) :
    Entered (m.apply d.people) (m.after ++ rest) := by
  have hle : d.nobj ≤ (m.apply d.people).nobj := m.nobj_le d.people
  refine ⟨fun uid u hu => ?_, fun u hu => ?_, fun q hq => ?_⟩
  · rcases hm.usermap hu with hu | ⟨user, rfl, rfl, rfl⟩
    · obtain ⟨hid, hlt⟩ := h.ids uid u hu
      exact ⟨(m.id_apply d.people hlt).trans hid, Nat.lt_of_lt_of_le hlt hle⟩
    · exact ⟨congrArg User.id (Function.update_self _ _ _), Nat.lt_succ_self _⟩
  · rcases hm.seated hu with hu | ⟨seat, hq⟩
    · exact Nat.lt_of_lt_of_le (h.seated u hu) hle
    · exact Nat.lt_of_lt_of_le (h.pending _ (List.mem_append_left _ hq)) hle
  · rcases List.mem_append.1 hq with hq | hq
    · cases m with
      | assign u seat free =>
          obtain rfl := List.mem_singleton.1 hq
          obtain ⟨uid, -, -, -, hu, -⟩ := hm
          exact (h.ids uid u hu).2
      | _ => cases hq
    · exact Nat.lt_of_lt_of_le (h.pending q (List.mem_append_right _ hq)) hle

/-! ### The number of users -/

/-- Counted users are not more than those who are counted. -/
theorem length_usermap_le (h : ∀ uid ∈ p.usermap, p.counts uid) :
    p.usermap.keys.length ≤ (vals p.users).length + (vals p.audiences).length := by
  have hsub : p.usermap.keys ⊆ (vals p.users).map (fun u => (p.objs u).id) ++ p.audiences.keys := by
    intro uid huid
    rcases h uid (AList.mem_keys.1 huid) with ha | ⟨u, hu, hid⟩
    · exact List.mem_append_right _ (AList.mem_keys.2 ha)
    · exact List.mem_append_left _ (List.mem_map.2 ⟨u, hu, hid⟩)
  have hle := (p.usermap.keys_nodup.subperm hsub).length_le
  have hkeys : p.audiences.keys.length = (vals p.audiences).length :=
    (List.length_map _).trans (List.length_map _).symm
  rw [List.length_append, List.length_map, hkeys] at hle
  exact hle

theorem Counted.perm {l' : List (Ref × ℤ)} (hp : l.Perm l') (h : Counted p l) : Counted p l' :=
  ⟨(((hp.map _).append_left _).append_left _).nodup_iff.1 h.parted, h.counts, h.bound⟩

/-- A seat that is pending is not taken. -/
theorem lookup_of_parted {u : Ref} {seat : ℤ} (h : p.Parted ((u, seat) :: rest)) :
    p.users.lookup seat = none := by
  rw [← Option.not_isSome_iff_eq_none, lookup_isSome_iff_mem_keys]
  intro hm
  have hn : (p.users.keys ++ seat :: rest.map Prod.snd).Nodup := (List.nodup_append.1 h).2.1
  exact (List.nodup_append.1 hn).2.2 seat hm seat List.mem_cons_self rfl

theorem parted_move (hm : m.May d j) (h : d.people.Parted (m.before ++ rest)) :
    (m.apply d.people).Parted (m.after ++ rest) := by
  cases m with
  | assign u seat free =>
      obtain ⟨uid, withseat, -, -, -, ht⟩ := hm
      have hperm := ht.2 (List.nodup_append.1 h).1
      have h' := ((hperm.append_right _).nodup_iff).1 h
      refine (List.Perm.nodup_iff ?_).1 h'
      change (seat :: (free ++ (d.users.keys ++ rest.map Prod.snd))).Perm
        (free ++ (d.users.keys ++ seat :: rest.map Prod.snd))
      exact (List.perm_middle.symm).trans (List.Perm.append_left _ List.perm_middle.symm)
  | sit u seat b =>
      have hnone : d.users.lookup seat = none := lookup_of_parted h
      have hkey : seat ∉ d.users.keys := by
        rw [← lookup_isSome_iff_mem_keys]
        rw [hnone]
        exact Bool.false_ne_true
      refine (List.Perm.nodup_iff ?_).1 h
      change (d.freeseats ++ (d.users.keys ++ seat :: rest.map Prod.snd)).Perm
        (d.freeseats ++ ((d.users.insert seat u).keys ++ rest.map Prod.snd))
      rw [AList.keys_insert, List.erase_of_not_mem hkey]
      exact List.Perm.append_left _ List.perm_middle
  | unseat seat v =>
      have hkey : seat ∈ d.users.keys := lookup_isSome_iff_mem_keys.1 (by rw [hm.2]; rfl)
      refine (List.Perm.nodup_iff ?_).1 h
      change (d.freeseats ++ (d.users.keys ++ rest.map Prod.snd)).Perm
        (d.freeseats ++ [seat] ++ ((d.users.erase seat).keys ++ rest.map Prod.snd))
      rw [AList.keys_erase, List.append_assoc]
      refine List.Perm.append_left _ ?_
      exact (List.perm_cons_erase hkey).append_right _
  | afk uid u =>
      rw [Move.apply, delegate_eq]
      exact h
  | _ => exact h

/-- **Every user stays counted.** -/
theorem counts_move (hm : m.May d j) (he : Entered d.people (m.before ++ rest))
    (hp : d.people.Parted (m.before ++ rest)) (h : ∀ uid ∈ d.usermap, d.people.counts uid) :
    ∀ uid ∈ (m.apply d.people).usermap, (m.apply d.people).counts uid := by
  -- who has a seat keeps his number
  have keep : ∀ {uid : ℕ}, (m.apply d.people).users = d.users →
      (uid ∈ d.audiences → uid ∈ (m.apply d.people).audiences) → d.people.counts uid →
      (m.apply d.people).counts uid := by
    intro uid husers haud hc
    refine hc.imp haud ?_
    rintro ⟨u, hu, hid⟩
    exact ⟨u, husers ▸ hu, (m.id_apply d.people (he.seated u hu)).trans hid⟩
  intro uid huid
  cases m with
  | join user =>
      rcases (AList.mem_insert d.usermap).1 huid with rfl | huid
      · exact Or.inl ((AList.mem_insert _).2 (Or.inl rfl))
      · exact keep rfl (fun ha => (AList.mem_insert _).2 (Or.inr ha)) (h uid huid)
  | sit u seat b =>
      have hlt : u < d.nobj := he.pending (u, seat) List.mem_cons_self
      by_cases heq : uid = (d.objs u).id
      · refine Or.inr ⟨u, mem_vals.2 ⟨seat, AList.lookup_insert _⟩, ?_⟩
        exact ((Move.sit u seat b).id_apply d.people hlt).trans heq.symm
      · rcases h uid huid with ha | ⟨w, hw, hid⟩
        · exact Or.inl (AList.mem_erase.2 ⟨heq, ha⟩)
        · refine Or.inr ⟨w, ?_, ((Move.sit u seat b).id_apply d.people (he.seated w hw)).trans hid⟩
          have hnone : d.users.lookup seat = none := lookup_of_parted hp
          change w ∈ vals (d.users.insert seat u)
          rw [vals_insert hnone]
          exact List.mem_cons_of_mem _ hw
  | unseat seat v =>
      by_cases heq : uid = (d.objs v).id
      · exact Or.inl ((AList.mem_insert _).2 (Or.inl heq))
      · rcases h uid huid with ha | ⟨w, hw, hid⟩
        · exact Or.inl ((AList.mem_insert _).2 (Or.inr ha))
        · refine Or.inr ⟨w, ?_, ((Move.unseat seat v).id_apply d.people (he.seated w hw)).trans hid⟩
          rcases List.mem_cons.1 ((vals_perm_erase hm.2).mem_iff.1 hw) with rfl | hw
          · exact absurd hid.symm heq
          · exact hw
  | drop u =>
      obtain ⟨hne, huid⟩ := AList.mem_erase.1 huid
      exact keep rfl (fun ha => AList.mem_erase.2 ⟨hne, ha⟩) (h uid huid)
  | afk uid' u =>
      have hpeople : (Move.apply d.people (.afk uid' u)).usermap = d.usermap ∧
          (Move.apply d.people (.afk uid' u)).users = d.users ∧
          (Move.apply d.people (.afk uid' u)).audiences = d.audiences := by
        rw [Move.apply, delegate_eq]
        exact ⟨rfl, rfl, rfl⟩
      rw [hpeople.1] at huid
      exact keep hpeople.2.1 (fun ha => hpeople.2.2 ▸ ha) (h uid huid)
  | _ => exact keep rfl id (h uid huid)

theorem Counted.move (hm : m.May d j) (he : Entered d.people (m.before ++ rest))
    (h : Counted d.people (m.before ++ rest)) : Counted (m.apply d.people) (m.after ++ rest) where
  parted := parted_move hm h.parted
  counts := counts_move hm he h.parted h.counts
  bound := by
    cases m with
    | join user =>
        obtain ⟨-, -, -, -, -, -, -, hnew, hroom⟩ := hm
        have hkey : user.id ∉ d.usermap.keys := by
          rw [← lookup_isSome_iff_mem_keys, hnew]
          exact Bool.false_ne_true
        have hle : d.usermap.keys.length ≤ _ := length_usermap_le h.counts
        change (d.usermap.insert user.id d.nobj).keys.length ≤ d.maxplayer + d.maxaudience
        rw [AList.keys_insert, List.erase_of_not_mem hkey, List.length_cons]
        change d.usermap.keys.length ≤ (vals d.users).length + (vals d.audiences).length at hle
        omega
    | drop u =>
        refine Nat.le_trans ?_ h.bound
        change (d.usermap.erase (d.objs u).id).keys.length ≤ d.usermap.keys.length
        rw [AList.keys_erase]
        exact List.length_erase_le
    | afk uid u =>
        rw [Move.apply, delegate_eq]
        exact h.bound
    | _ => exact h.bound

end Moves

/-! ### Runs -/

/-- **The capacity of a desk.** -/
structure Capacity (s : Sys) : Prop where
  bound : s.shared.usermap.keys.length ≤ s.shared.maxplayer + s.shared.maxaudience
  /-- Nobody is entered twice, not even under different numbers. -/
  ids : ∀ uid u, s.shared.usermap.lookup uid = some u → (s.shared.objs u).id = uid
  /-- `desk.join` changes nothing for a user who has joined already. -/
  again : ∀ uid android inp, uid ∈ s.shared.usermap →
    desk.exec s (.call (.join uid android) inp) = some s
  /-- Whatever happens next, a user is not replaced. -/
  kept : ∀ e s', desk.exec s e = some s' → ∀ uid u, s.shared.usermap.lookup uid = some u →
    s'.shared.usermap.lookup uid = some u ∨ s'.shared.usermap.lookup uid = none

section Runs

variable {C : Sys → Ev → Prop} {id creater timelimit : ℕ} {pay : Pay} {s s' : Sys} {e : Ev}

theorem entered_created : Entered (created id creater pay timelimit).shared.people
    (pending (pcs (created id creater pay timelimit))) := by
  refine ⟨?_, ?_, ?_⟩
  · intro uid u hu
    cases hu
  · intro u hu
    cases hu
  · intro q hq
    cases hq

theorem counted_of_reach (h : desk.Reach C (created id creater pay timelimit) s) :
    Entered s.shared.people (pending (pcs s)) ∧ Counted s.shared.people (pending (pcs s)) := by
  refine people_inv (I := fun p l => Entered p l ∧ Counted p l) ?_ ?_ ?_ h
  · exact fun p l l' hp hI => ⟨hI.1.perm hp, hI.2.perm hp⟩
  · refine ⟨entered_created, ⟨?_, ?_, ?_⟩⟩
    · change ((Desk.create id creater pay timelimit).freeseats ++ []).Nodup
      rw [List.append_nil]
      exact seats_nodup (Desk.create id creater pay timelimit)
    · intro uid huid
      cases huid
    · exact Nat.zero_le _
  · exact fun s e j inp m rest _ _ _ hm hI => ⟨hI.1.move hm, hI.2.move hm hI.1⟩

/-- `desk.join` refuses a user who has joined already. -/
theorem join_again (d : Desk) {uid : ℕ} (android : Bool) (inp : Inp) (h : uid ∈ d.usermap) :
    ∃ r, join d uid android inp = .ret d r := by
  have hsome : (d.usermap.lookup uid).isSome := AList.lookup_isSome.2 h
  unfold join
  rw [if_pos hsome]
  split
  · exact ⟨_, rfl⟩
  · split
    · exact ⟨_, rfl⟩
    · exact ⟨_, rfl⟩

/-- **A step does not replace a user.** -/
theorem lookup_exec (he : desk.exec s e = some s') {uid : ℕ} {u : Ref}
    (hu : s.shared.usermap.lookup uid = some u) :
    s'.shared.usermap.lookup uid = some u ∨ s'.shared.usermap.lookup uid = none := by
  rcases desk_cases he with ⟨q, rfl, -⟩ | ⟨j, inp, rest, b, q, l, -, -, -, hd, -⟩
  · exact Or.inl hu
  · rw [hd]
    obtain ⟨m, hm, hpeople, -⟩ := people_job s.shared inp j
    have hmap : (j.out s.shared inp).d.usermap = (m.apply s.shared.people).usermap :=
      congrArg People.usermap hpeople
    change (j.out s.shared inp).d.usermap.lookup uid = some u ∨ _ = none
    rw [hmap]
    cases hl : (m.apply s.shared.people).usermap.lookup uid with
    | none => exact Or.inr rfl
    | some v =>
        rcases hm.usermap hl with hv | ⟨user, rfl, rfl, -⟩
        · exact Or.inl (hv.symm.trans hu)
        · -- who joins has not been there
          obtain ⟨-, -, -, -, -, -, -, hnew, -⟩ := hm
          rw [hnew] at hu
          cases hu

/-- **A desk never has more users than it has room for, and nobody is entered twice or replaced**,
whatever overlaps. -/
theorem capacity_of_reach (h : desk.Reach Always (created id creater pay timelimit) s) :
    Capacity s := by
  obtain ⟨he, hc⟩ := counted_of_reach h
  refine ⟨hc.bound, fun uid u hu => (he.ids uid u hu).1, ?_,
    fun e s' hs uid u hu => lookup_exec hs hu⟩
  intro uid android inp huid
  obtain ⟨r, hr⟩ := join_again s.shared android inp huid
  have hcall : desk.call s.shared (.join uid android) inp = settle false (.ret s.shared r) :=
    congrArg (settle false) hr
  change some (Pool.mk (desk.call s.shared (.join uid android) inp).1
    (s.cos ++ (desk.call s.shared (.join uid android) inp).2)) = some s
  rw [hcall]
  exact congrArg (fun l => some (Pool.mk s.shared l)) (List.append_nil s.cos)

/-- User 2 joins and sits down, and cannot join again. -/
theorem capacity_joinAndSit :
    ∃ s, desk.Reach Always (created 100001 1 ⟨true, 3⟩ 30) s ∧ 2 ∈ s.shared.usermap ∧
    Capacity s := by
  obtain ⟨s, hs, hp⟩ := Machine.exists_reach joinAndSit
    (p := fun s => decide (2 ∈ s.shared.usermap.keys)) (C := Always)
    (i := created 100001 1 ⟨true, 3⟩ 30) (M := desk) (by decide +kernel)
  exact ⟨s, hs, AList.mem_keys.2 (of_decide_eq_true hp), capacity_of_reach hs⟩

end Runs

end Halieutics
