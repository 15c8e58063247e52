/-
**Who sits where, whatever becomes of the desk.**

`Halieutics.SeatFull` describes the tables of a desk until it is freed: `free_desk` drops the users
one after another, and leaves those who are seated in `d.users`.  A game may still be going on then.
What it needs is less, and is never lost: a user object names the seat at which its user is listed,
and whoever is at the desk without a seat watches.

Main definitions:

* `Halieutics.Places` — somebody has a seat, or is about to get it;
* `Halieutics.Placed` — **the user objects agree with the seats**;
* `Halieutics.Desk.taken` — somebody sits at a seat.

Main results:

* `Halieutics.placed_of_sitsApart` — the user objects agree with the seats in every run in which no
  user sits down while a seat is pending for him;
* `Halieutics.Placed.atSeat` — the player of a seat is the one who is listed there.
-/

import Halieutics.DeskSeats

set_option relaxedAutoImplicit false
set_option autoImplicit false

namespace Halieutics

open LuaTable Coroutine

/-- Somebody has a seat, or is about to get it. -/
def Places (d : Desk) (l : List Pc) (u : Ref) (seat : ℤ) : Prop :=
  d.users.lookup seat = some u ∨ (u, seat) ∈ pending l

/-- **The user objects agree with the seats.** -/
structure Placed (d : Desk) (l : List Pc) : Prop where
  seat : ∀ u seat, Places d l u seat → (d.objs u).seat = seat
  others : ∀ uid u, d.usermap.lookup uid = some u →
    u ∈ occupants d l ∨ (d.objs u).audience = some true

/-- Somebody sits at the seat. -/
def Desk.taken (d : Desk) (seat : ℤ) : Prop := (d.users.lookup seat).isSome = true

variable {d d' : Desk} {l l' rest : List Pc} {u : Ref} {seat : ℤ}

theorem Places.occupant (h : Places d l u seat) : u ∈ occupants d l := by
  rcases h with h | h
  · exact List.mem_append_left _ (mem_vals.2 ⟨seat, h⟩)
  · exact List.mem_append_right _ (List.mem_map.2 ⟨_, h, rfl⟩)

theorem Placed.same (hs : SameSeats d d') (hl : pending l' = pending l) (h : Placed d l) :
    Placed d' l' := by
  refine ⟨fun u seat hu => ?_, fun uid u hu => ?_⟩
  · rw [hs.seat]
    rw [Places, hs.users, hl] at hu
    exact h.seat u seat hu
  · rw [hs.usermap] at hu
    rw [hs.occupants hl, hs.audience]
    exact h.others uid u hu

/-- A coroutine at a point where no seat is pending may come and go. -/
theorem Placed.cons {pc : Pc} (hpc : pc.sitting? = none) (h : Placed d l) : Placed d (pc :: l) :=
  h.same (.refl d) (List.filterMap_cons_none hpc)

theorem Placed.perm (hp : l.Perm l') (h : Placed d l) : Placed d l' := by
  have hpend : (pending l).Perm (pending l') := hp.filterMap _
  have hocc : (occupants d l).Perm (occupants d l') := (hpend.map _).append_left _
  refine ⟨fun u seat hu => h.seat u seat (hu.imp_right hpend.mem_iff.2), fun uid u hu => ?_⟩
  exact (h.others uid u hu).imp_left hocc.mem_iff.1

/-! ### One piece of work -/

theorem Placed.drop (hb : SeatBase d l) (u : Ref) (h : Placed d l) : Placed (drop d u) l := by
  have hseat : ∀ v, ((Halieutics.drop d u).objs v).seat = (d.objs v).seat := by
    intro v
    by_cases hv : v = u
    · rw [hv, Halieutics.drop, objs_setUser_self]
    · exact congrArg User.seat (objs_setUser_ne _ _ hv)
  refine ⟨fun v seat hv => (hseat v).trans (h.seat v seat hv), fun uid v hv => ?_⟩
  rw [show (Halieutics.drop d u).usermap = d.usermap.erase (d.objs u).id from rfl,
    lookup_erase_eq] at hv
  split at hv
  · cases hv
  · rename_i hne
    have hvu : v ≠ u := by
      rintro rfl
      exact hne (hb.ids uid v hv).1.symm
    rw [show (Halieutics.drop d u).objs v = d.objs v from objs_setUser_ne _ _ hvu]
    exact h.others uid v hv

/-- A user who gives his seat back watches. -/
theorem Placed.unseat {v : Ref} (hb : SeatBase d l) (hv : d.users.lookup seat = some v)
    (h : Placed d l) : Placed (unseat d seat v) l := by
  have hvals : (vals d.users).Perm (v :: vals (Halieutics.unseat d seat v).users) :=
    vals_perm_erase hv
  refine ⟨fun w seat' hw => ?_, fun uid w hw => ?_⟩
  · have hplaces : Places d l w seat' ∧ w ≠ v := by
      rcases hw with hw | hw
      · rw [show (Halieutics.unseat d seat v).users = d.users.erase seat from rfl,
          lookup_erase_eq] at hw
        split at hw
        · cases hw
        · rename_i hne
          refine ⟨Or.inl hw, ?_⟩
          rintro rfl
          exact hne ((h.seat w seat' (Or.inl hw)).symm.trans (h.seat w seat (Or.inl hv)))
      · refine ⟨Or.inr hw, ?_⟩
        rintro rfl
        exact (List.nodup_append.1 hb.occupants_nodup).2.2 w (mem_vals.2 ⟨seat, hv⟩) w
          (List.mem_map.2 ⟨_, hw, rfl⟩) rfl
    rw [show (Halieutics.unseat d seat v).objs w = d.objs w from objs_setUser_ne _ _ hplaces.2]
    exact h.seat w seat' hplaces.1
  · by_cases hwv : w = v
    · subst hwv
      exact Or.inr (congrArg User.audience (objs_setUser_self _ _ _))
    · rw [show (Halieutics.unseat d seat v).objs w = d.objs w from objs_setUser_ne _ _ hwv]
      refine (h.others uid w hw).imp_left fun hm => ?_
      rcases List.mem_append.1 hm with hm | hm
      · exact List.mem_append_left _ ((List.mem_cons.1 (hvals.mem_iff.1 hm)).resolve_left hwv)
      · exact List.mem_append_right _ hm

/-- A new user watches. -/
theorem Placed.joinin {user : User} (hb : SeatBase d l) (haud : user.audience = some true)
    (h : Placed d l) : Placed (joinin d user) l := by
  have hobjs : ∀ v, v < d.nobj → (Halieutics.joinin d user).objs v = d.objs v :=
    fun v hv => Function.update_of_ne (Nat.ne_of_lt hv) _ _
  refine ⟨fun v seat hv => ?_, fun uid v hv => ?_⟩
  · have hold : Places d l v seat := hv
    rw [hobjs v (hb.known v hold.occupant)]
    exact h.seat v seat hold
  · rw [show (Halieutics.joinin d user).usermap = d.usermap.insert user.id d.nobj from rfl,
      lookup_insert_eq] at hv
    split at hv
    · obtain rfl := Option.some_inj.1 hv
      refine Or.inr ?_
      rw [show (Halieutics.joinin d user).objs d.nobj = user from Function.update_self _ _ _]
      exact haud
    · rw [hobjs v (hb.ids uid v hv).2]
      exact h.others uid v hv

/-- A seat is assigned to a user who has none and is not about to get one. -/
theorem Placed.assign {uid : ℕ} {free : List ℤ} (hb : SeatBase d l)
    (hu : d.usermap.lookup uid = some u)
    (hno : ∀ v ∈ occupants d l, (d.objs v).id ≠ uid) (h : Placed d l) :
    Placed (assignSeat d u seat free) (.sitAdd u seat :: l) := by
  refine ⟨fun v seat' hv => ?_, fun w v hv => ?_⟩
  · have hcases : Places d l v seat' ∨ (v, seat') = (u, seat) := by
      rcases hv with hv | hv
      · exact Or.inl (Or.inl hv)
      · rcases List.mem_cons.1 (show (v, seat') ∈ (u, seat) :: pending l from hv) with he | hv
        · exact Or.inr he
        · exact Or.inl (Or.inr hv)
    rcases hcases with hold | he
    · have hvu : v ≠ u := by
        rintro rfl
        exact hno v hold.occupant (hb.id_eq hu)
      rw [show (assignSeat d u seat free).objs v = d.objs v from objs_setUser_ne _ _ hvu]
      exact h.seat v seat' hold
    · obtain ⟨rfl, rfl⟩ := Prod.mk.inj he
      exact congrArg User.seat (objs_setUser_self _ _ _)
  · by_cases hvu : v = u
    · subst hvu
      exact Or.inl (List.mem_append_right _ List.mem_cons_self)
    · rw [show (assignSeat d u seat free).objs v = d.objs v from objs_setUser_ne _ _ hvu]
      refine (h.others w v hv).imp_left fun hm => ?_
      rcases List.mem_append.1 hm with hm | hm
      · exact List.mem_append_left _ hm
      · exact List.mem_append_right _ (List.mem_cons_of_mem _ hm)

/-- The pending seat is taken. -/
theorem Placed.sit (hb : SeatBase d (.sitAdd u seat :: l)) (h : Placed d (.sitAdd u seat :: l)) :
    Placed (seatUser d u seat) l := by
  have hnone := hb.seated.2
  refine ⟨fun v seat' hv => ?_, fun w v hv => ?_⟩
  · have hold : Places d (.sitAdd u seat :: l) v seat' := by
      rcases hv with hv | hv
      · rw [show (seatUser d u seat).users = d.users.insert seat u from rfl, lookup_insert_eq] at hv
        split at hv
        · rename_i he
          obtain rfl := Option.some_inj.1 hv
          exact Or.inr (he ▸ List.mem_cons_self)
        · exact Or.inl hv
      · exact Or.inr (List.mem_cons_of_mem _ hv)
    exact h.seat v seat' hold
  · refine (h.others w v hv).imp_left fun hm => ?_
    change v ∈ vals (d.users.insert seat u) ++ _
    rw [vals_insert hnone]
    rcases List.mem_append.1 hm with hm | hm
    · exact List.mem_append_left _ (List.mem_cons_of_mem _ hm)
    · rcases List.mem_cons.1 hm with rfl | hm
      · exact List.mem_append_left _ List.mem_cons_self
      · exact List.mem_append_right _ hm

theorem Placed.effect {S : ℕ → Prop} {o : Out} (hA : ApartFrom S d rest) (hb : SeatBase d rest)
    (he : SeatEffect S d o) (h : Placed d rest) : Placed o.d (o.pcs ++ rest) := by
  cases he with
  | same hs hp => exact h.same hs (by rw [pending_append, pending_eq_nil hp, List.nil_append])
  | drop hs _ => exact ((h.same hs rfl).drop (hb.same hs rfl) _).cons rfl
  | stand hs hv => exact ((h.same hs rfl).unseat (hb.same hs rfl) hv).cons rfl
  | join hs _ ha _ => exact ((h.same hs rfl).joinin (hb.same hs rfl) ha).cons rfl
  | assign hs hS hno hu ht =>
      exact (h.same hs rfl).assign (hb.same hs rfl) hu (not_occupant hs hA hS hno)

theorem Placed.called (inp : Inp) (j : Job) (h : Placed d l) : Placed (j.called d inp) l := by
  cases j with
  | req r => exact h
  | cmd u c => exact h
  | seg pc =>
      dsimp only [Job.called, executed]
      split
      · exact h
      · exact ⟨h.seat, h.others⟩

/-- **One piece of work.** -/
theorem Placed.job {s : Sys} {j : Job} {inp : Inp} (hp : (pcs s).Perm (j.pcs ++ rest))
    (hC : SitsApart s j) (hb : SeatBase s.shared (j.pcs ++ rest))
    (h : Placed s.shared (j.pcs ++ rest)) :
    Placed (j.out s.shared inp).d ((j.out s.shared inp).pcs ++ rest) := by
  by_cases hj : pending j.pcs = []
  · have hpend : pending rest = pending (j.pcs ++ rest) := by
      rw [pending_append, hj, List.nil_append]
    have hA : ApartFrom (fun uid => ∃ seat, j = .req (.sitdown uid seat)) (j.called s.shared inp)
        rest := by
      rintro uid ⟨seat, rfl⟩ p hpm
      have hperm : (pending (pcs s)).Perm (pending rest) := hp.filterMap _
      exact hC p (hperm.mem_iff.2 hpm)
    exact ((h.same (.refl _) hpend).called inp j).effect hA ((hb.same (.refl _) hpend).called inp j)
      (seatEffect_job s.shared inp hj)
  · -- the pending seat is taken
    obtain ⟨u, seat, rfl⟩ := sitAdd_of_pending hj
    obtain ⟨hsame, hpcs⟩ := sitSeated_same (executed s.shared inp (.sitAdd u seat)) u seat
    have hpend : pending ((Job.out s.shared inp (.seg (.sitAdd u seat))).pcs ++ rest) =
      pending rest := by
      have hnil : pending (Job.out s.shared inp (.seg (.sitAdd u seat))).pcs = [] := by
        rcases hpcs with hpcs | hpcs <;> exact congrArg pending hpcs
      rw [pending_append, hnil, List.nil_append]
    exact (Placed.sit (hb.called inp (.seg (.sitAdd u seat)))
      (h.called inp (.seg (.sitAdd u seat)))).same hsame hpend

/-! ### Runs -/

/-- **The user objects agree with the seats**, in every run in which no user sits down while a seat
is pending for him. -/
theorem placed_of_sitsApart {id creater timelimit : ℕ} {pay : Pay} {s : Sys}
    (h : desk.Reach (Under SitsApart) (created id creater pay timelimit) s) :
    Placed s.shared (pcs s) := by
  refine desk_inv ?_ ?_ ?_ ?_ ?_ (h.and_inv fun s hs => seatInv_of_sitsApart hs)
  · exact fun d l l' hp hI => hI.perm hp
  · exact fun d l b q hI => ⟨hI.seat, hI.others⟩
  · exact fun d l u c hI => hI.cons rfl
  · refine ⟨fun u seat hu => ?_, fun uid u hu => ?_⟩
    · exact absurd hu.occupant List.not_mem_nil
    · cases hu
  · rintro s e j inp rest ⟨hC, hseat⟩ hj hp _ hI
    rw [Under, hj] at hC
    exact hI.job hp hC (hseat.perm hp).base

/-! ### Finding a player -/

/-- **The player of a seat is the one who is listed there.** -/
theorem Placed.atSeat (h : Placed d l) (hu : d.users.lookup seat = some u) :
    d.atSeat seat = some u := by
  have hmem : u ∈ vals d.users := mem_vals.2 ⟨seat, hu⟩
  have hseat := h.seat u seat (Or.inl hu)
  cases hfind : d.atSeat seat with
  | none =>
      exact absurd (by simpa using hseat) (List.find?_eq_none.1 hfind u hmem)
  | some v =>
      have hv : v ∈ vals d.users := List.mem_of_find?_eq_some hfind
      have hvseat : (d.objs v).seat = seat := by simpa using List.find?_some hfind
      obtain ⟨seat', hlookup⟩ := mem_vals.1 hv
      obtain rfl : seat' = seat := (h.seat v seat' (Or.inl hlookup)).symm.trans hvseat
      rw [← hu, hlookup]

/-- Whoever sits at a seat is found there. -/
theorem Placed.of_taken (h : Placed d l) (ht : d.taken seat) :
    ∃ u ∈ vals d.users, (d.objs u).seat = seat ∧ d.atSeat seat = some u := by
  obtain ⟨u, hu⟩ := Option.isSome_iff_exists.1 ht
  exact ⟨u, mem_vals.2 ⟨seat, hu⟩, h.seat u seat (Or.inl hu), h.atSeat hu⟩

/-- A player sits at the seat that his object names. -/
theorem Placed.taken (h : Placed d l) (hu : u ∈ vals d.users) : d.taken (d.objs u).seat := by
  obtain ⟨seat, hlookup⟩ := mem_vals.1 hu
  rw [h.seat u seat (Or.inl hlookup), Desk.taken, hlookup]
  rfl

end Halieutics
