/-
**Who sits where.**

A desk keeps its seats in four tables — `freeseats`, `users`, `usermap` and `audiences` — and in two
fields of the user objects.  `init_user` takes a seat out of `freeseats`, yields, and only then puts
the user into `users`; the seat is *pending* meanwhile.  The check of `desk.sitdown` for a user who
sits already looks at `users` only, so two requests of one user that overlap pass it both.

As long as no user sits down while a seat is pending for him, the free seats, the taken seats and
the pending ones are all the seats there are, nobody has two of them, and the tables agree with the
user objects until the desk is freed.

Main definitions:

* `Halieutics.pending` — the seats that are pending;
* `Halieutics.SeatBase`, `Halieutics.SeatFull` — the invariant of the tables, and its part that
  `free_desk` breaks;
* `Halieutics.SeatPartition` — the tables of a desk at which nothing is pending;
* `Halieutics.SitsApart` — **the condition**: no user sits down while a seat is pending for him.

Main results:

* `Halieutics.seatInv_of_sitsApart` — the tables along every run under the condition;
* `Halieutics.seatPartition_of_complete` — **the seats are partitioned** when requests do not
  overlap;
* `Halieutics.oneSeat_of_sitsApart` — **nobody has two seats**, and nobody is charged more often
  than he takes a seat;
* `Halieutics.sitdown_twice_takes_two_seats` — two overlapping `sitdown` requests take two seats.
-/

import Halieutics.DeskCosts

set_option relaxedAutoImplicit false
set_option autoImplicit false

namespace Halieutics

open LuaTable Coroutine

/-! ### The invariant -/

/-- The seat that is pending at a point, and its user. -/
def Pc.sitting? : Pc → Option (Ref × ℤ)
  | .sitAdd u seat => some (u, seat)
  | _ => none

/-- The seats that are pending. -/
def pending (l : List Pc) : List (Ref × ℤ) := l.filterMap Pc.sitting?

@[simp] theorem pending_append (l l' : List Pc) : pending (l ++ l') = pending l ++ pending l' :=
  List.filterMap_append

/-- All seats of a desk. -/
def Desk.seats (d : Desk) : List ℤ := (List.range d.maxplayer).map fun i : ℕ => (i : ℤ) + 1

/-- The users who have a seat, or for whom one is pending. -/
def occupants (d : Desk) (l : List Pc) : List Ref := vals d.users ++ (pending l).map Prod.fst

/-- The tables of a desk, as far as `free_desk` leaves them alone. -/
structure SeatBase (d : Desk) (l : List Pc) : Prop where
  parts : (d.freeseats ++ (d.users.keys ++ (pending l).map Prod.snd)).Perm d.seats
  known : ∀ u ∈ occupants d l, u < d.nobj
  once : ((occupants d l).map fun u => (d.objs u).id).Nodup
  ids : ∀ uid u, d.usermap.lookup uid = some u → (d.objs u).id = uid ∧ u < d.nobj

/-- The user has this seat and is known to the desk. -/
structure Sits (d : Desk) (u : Ref) (seat : ℤ) : Prop where
  seat : (d.objs u).seat = seat
  audience : (d.objs u).audience = some false
  joined : d.usermap.lookup (d.objs u).id = some u

/-- **The tables of a desk and its user objects**, until the desk is freed. -/
structure SeatFull (d : Desk) (l : List Pc) : Prop where
  seated : ∀ seat u, d.users.lookup seat = some u → Sits d u seat
  pending : ∀ u seat, (u, seat) ∈ pending l → Sits d u seat
  others : ∀ uid u, d.usermap.lookup uid = some u → u ∈ occupants d l ∨
    ((d.objs u).seat = -1 ∧ (d.objs u).audience = some true)
  audience : ∀ uid, uid ∈ d.audiences ↔ ∃ u, d.usermap.lookup uid = some u ∧ u ∉ vals d.users

/-! ### Work that leaves the seats alone -/

/-- The entries of the history that say who took a seat, and who was charged. -/
def Act.seat : Act → Bool
  | .rpc (.useProp _ _ _) | .mark (.seated _) => true
  | _ => false

/-- The two desks have the same tables of users. -/
structure SameSeats (d d' : Desk) : Prop where
  users : d'.users = d.users
  usermap : d'.usermap = d.usermap
  audiences : d'.audiences = d.audiences
  freeseats : d'.freeseats = d.freeseats
  nobj : d'.nobj = d.nobj
  maxplayer : d'.maxplayer = d.maxplayer
  person : ∀ u, (d'.objs u).base = (d.objs u).base
  acts : d'.hist.filter Act.seat = d.hist.filter Act.seat

theorem filter_seat_base (hist : List Act) :
    (hist.filter Act.base).filter Act.seat = hist.filter Act.seat := by
  rw [List.filter_filter]
  congr 1
  funext a
  cases a with
  | rpc r => cases r <;> rfl
  | mark m => cases m <;> rfl

theorem sameSeats_of_base {d d' : Desk} (h : d'.base = d.base) : SameSeats d d' where
  users := (congrArg Desk.users h :)
  usermap := (congrArg Desk.usermap h :)
  audiences := (congrArg Desk.audiences h :)
  freeseats := (congrArg Desk.freeseats h :)
  nobj := (congrArg Desk.nobj h :)
  maxplayer := (congrArg Desk.maxplayer h :)
  person := fun u => (congrArg (fun d => Desk.objs d u) h :)
  acts := by
    rw [← filter_seat_base, ← filter_seat_base d.hist]
    exact (congrArg (fun d => (Desk.hist d).filter Act.seat) h :)

theorem SameSeats.refl (d : Desk) : SameSeats d d :=
  ⟨rfl, rfl, rfl, rfl, rfl, rfl, fun _ => rfl, rfl⟩

theorem SameSeats.trans {d d' d'' : Desk} (h : SameSeats d d') (h' : SameSeats d' d'') :
    SameSeats d d'' :=
  ⟨h'.users.trans h.users, h'.usermap.trans h.usermap, h'.audiences.trans h.audiences,
    h'.freeseats.trans h.freeseats, h'.nobj.trans h.nobj, h'.maxplayer.trans h.maxplayer,
    fun u => (h'.person u).trans (h.person u), h'.acts.trans h.acts⟩

section Same

variable {d d' : Desk} {l l' : List Pc}

theorem SameSeats.id (h : SameSeats d d') (u : Ref) : (d'.objs u).id = (d.objs u).id :=
  (congrArg User.id (h.person u) :)

theorem SameSeats.seat (h : SameSeats d d') (u : Ref) : (d'.objs u).seat = (d.objs u).seat :=
  (congrArg User.seat (h.person u) :)

theorem SameSeats.audience (h : SameSeats d d') (u : Ref) :
    (d'.objs u).audience = (d.objs u).audience :=
  (congrArg User.audience (h.person u) :)

theorem SameSeats.occupants (h : SameSeats d d') (hl : pending l' = pending l) :
    occupants d' l' = occupants d l := by
  rw [Halieutics.occupants, Halieutics.occupants, h.users, hl]

theorem SeatBase.same (hs : SameSeats d d') (hl : pending l' = pending l) (h : SeatBase d l) :
    SeatBase d' l' where
  parts := by
    rw [hs.freeseats, hs.users, hl, Desk.seats, hs.maxplayer]
    exact h.parts
  known := by rw [hs.occupants hl, hs.nobj]; exact h.known
  once := by
    rw [hs.occupants hl]
    simpa only [hs.id] using h.once
  ids := by
    intro uid u hu
    rw [hs.usermap] at hu
    rw [hs.id, hs.nobj]
    exact h.ids uid u hu

theorem Sits.same (hs : SameSeats d d') {u : Ref} {seat : ℤ} (h : Sits d u seat) : Sits d' u seat :=
  ⟨(hs.seat u).trans h.seat, (hs.audience u).trans h.audience,
    by rw [hs.id, hs.usermap]; exact h.joined⟩

theorem SeatFull.same (hs : SameSeats d d') (hl : Halieutics.pending l' = Halieutics.pending l)
    (h : SeatFull d l) : SeatFull d' l' where
  seated := by
    rw [hs.users]
    exact fun seat u hu => (h.seated seat u hu).same hs
  pending := by
    rw [hl]
    exact fun u seat hu => (h.pending u seat hu).same hs
  others := by
    intro uid u hu
    rw [hs.usermap] at hu
    rw [hs.occupants hl, hs.seat, hs.audience]
    exact h.others uid u hu
  audience := by
    rw [hs.audiences, hs.usermap, hs.users]
    exact h.audience

/-- A coroutine at a point where no seat is pending may come and go. -/
theorem SeatBase.cons {pc : Pc} (hpc : pc.sitting? = none) (h : SeatBase d l) :
    SeatBase d (pc :: l) :=
  h.same (.refl d) (List.filterMap_cons_none hpc)

theorem SeatFull.cons {pc : Pc} (hpc : pc.sitting? = none) (h : SeatFull d l) :
    SeatFull d (pc :: l) :=
  h.same (.refl d) (List.filterMap_cons_none hpc)

end Same

/-! ### Consequences of the invariant -/

theorem seats_nodup (d : Desk) : d.seats.Nodup := by
  refine List.Nodup.map ?_ List.nodup_range
  intro a b hab
  simpa using hab

section Base

variable {d : Desk} {l : List Pc}

theorem SeatBase.nodup (h : SeatBase d l) :
    (d.freeseats ++ (d.users.keys ++ (pending l).map Prod.snd)).Nodup :=
  h.parts.nodup_iff.2 (seats_nodup d)

theorem SeatBase.freeseats_nodup (h : SeatBase d l) : d.freeseats.Nodup :=
  (List.nodup_append.1 h.nodup).1

theorem SeatBase.seat_pos (h : SeatBase d l) {seat : ℤ} (hk : seat ∈ d.users.keys) : 1 ≤ seat := by
  have : seat ∈ d.seats := h.parts.mem_iff.1 (by simp [hk])
  obtain ⟨i, -, rfl⟩ := List.mem_map.1 this
  omega

/-- The users who sit, or are about to, are different objects. -/
theorem SeatBase.occupants_nodup (h : SeatBase d l) : (occupants d l).Nodup :=
  List.Nodup.of_map _ h.once

theorem SeatBase.vals_nodup (h : SeatBase d l) : (vals d.users).Nodup :=
  (List.nodup_append.1 h.occupants_nodup).1

/-- One object is under one key. -/
theorem SeatBase.usermap_inj (h : SeatBase d l) {uid uid' : ℕ} {u : Ref}
    (hu : d.usermap.lookup uid = some u) (hu' : d.usermap.lookup uid' = some u) : uid = uid' :=
  (h.ids uid u hu).1.symm.trans (h.ids uid' u hu').1

theorem SeatBase.id_eq (h : SeatBase d l) {uid : ℕ} {u : Ref}
    (hu : d.usermap.lookup uid = some u) : (d.objs u).id = uid := (h.ids uid u hu).1

theorem SeatFull.sits (h : SeatFull d l) {u : Ref} (hu : u ∈ occupants d l) :
    ∃ seat, Sits d u seat := by
  rcases List.mem_append.1 hu with hu | hu
  · obtain ⟨seat, hs⟩ := mem_vals.1 hu
    exact ⟨seat, h.seated seat u hs⟩
  · obtain ⟨p, hp, rfl⟩ := List.mem_map.1 hu
    exact ⟨p.2, h.pending p.1 p.2 hp⟩

end Base

/-! ### What happens to the tables -/

theorem objs_setUser_ne (d : Desk) (f : User → User) {u v : Ref} (h : v ≠ u) :
    (d.setUser u f).objs v = d.objs v := Function.update_of_ne h _ _

theorem objs_setUser_self (d : Desk) (f : User → User) (u : Ref) :
    (d.setUser u f).objs u = f (d.objs u) := Function.update_self _ _ _

theorem id_setUser (d : Desk) (u v : Ref) {f : User → User} (hf : ∀ x, (f x).id = x.id) :
    ((d.setUser u f).objs v).id = (d.objs v).id := by
  by_cases hv : v = u
  · rw [hv, objs_setUser_self, hf]
  · rw [objs_setUser_ne d f hv]

theorem id_drop (d : Desk) (u v : Ref) : ((drop d u).objs v).id = (d.objs v).id :=
  id_setUser _ u v fun _ => rfl

theorem id_unseat (d : Desk) (seat : ℤ) (u v : Ref) :
    ((unseat d seat u).objs v).id = (d.objs v).id :=
  id_setUser _ u v fun _ => rfl

theorem id_assignSeat (d : Desk) (u : Ref) (seat : ℤ) (rest : List ℤ) (v : Ref) :
    ((assignSeat d u seat rest).objs v).id = (d.objs v).id :=
  id_setUser _ u v fun _ => rfl

section Steps

variable {d : Desk} {l : List Pc}

/-- A user is dropped from the tables: he keeps the seat he may have. -/
theorem SeatBase.drop (u : Ref) (h : SeatBase d l) : SeatBase (drop d u) l := by
  refine ⟨h.parts, h.known, ?_, ?_⟩
  · simp only [id_drop]
    exact h.once
  · intro uid v hv
    rw [id_drop]
    refine h.ids uid v ?_
    rw [show (Halieutics.drop d u).usermap = d.usermap.erase (d.objs u).id from rfl,
      lookup_erase_eq] at hv
    split at hv
    · simp at hv
    · exact hv

theorem Sits.setUser {u v : Ref} {seat : ℤ} {f : User → User} (hv : v ≠ u) (h : Sits d v seat) :
    Sits (d.setUser u f) v seat :=
  ⟨by rw [objs_setUser_ne d f hv]; exact h.seat, by rw [objs_setUser_ne d f hv]; exact h.audience,
    by rw [objs_setUser_ne d f hv]; exact h.joined⟩

/-- A user who does not sit leaves. -/
theorem SeatFull.drop {uid : ℕ} {u : Ref} (hb : SeatBase d l) (hu : d.usermap.lookup uid = some u)
    (ha : (d.objs u).audience ≠ some false) (h : SeatFull d l) : SeatFull (drop d u) l := by
  have hid := hb.id_eq hu
  have hocc : u ∉ occupants d l := by
    intro hm
    obtain ⟨seat, hs⟩ := h.sits hm
    exact ha hs.audience
  have hsits : ∀ v ∈ occupants d l, ∀ seat, Sits d v seat → Sits (Halieutics.drop d u) v seat := by
    intro v hv seat hs
    have hvu : v ≠ u := fun he => hocc (he ▸ hv)
    refine Sits.setUser hvu ⟨hs.seat, hs.audience, ?_⟩
    have hne : (d.objs v).id ≠ (d.objs u).id := by
      intro he
      have hj := hs.joined
      rw [he, hid, hu] at hj
      exact hvu (Option.some_inj.1 hj).symm
    exact (AList.lookup_erase_ne hne).trans hs.joined
  have hmap : ∀ w v, (Halieutics.drop d u).usermap.lookup w = some v ↔
      w ≠ uid ∧ d.usermap.lookup w = some v := by
    intro w v
    rw [show (Halieutics.drop d u).usermap = d.usermap.erase (d.objs u).id from rfl,
      lookup_erase_eq, hid]
    by_cases hw : w = uid <;> simp [hw]
  refine ⟨?_, ?_, ?_, ?_⟩
  · intro seat v hv
    exact hsits v (List.mem_append_left _ (mem_vals.2 ⟨seat, hv⟩)) seat (h.seated seat v hv)
  · intro v seat hv
    exact hsits v (List.mem_append_right _ (List.mem_map.2 ⟨_, hv, rfl⟩)) seat
      (h.pending v seat hv)
  · intro w v hv
    obtain ⟨hw, hv⟩ := (hmap w v).1 hv
    have hvu : v ≠ u := fun he => hw (hb.usermap_inj (he ▸ hv) hu)
    rw [show (Halieutics.drop d u).objs v = d.objs v from objs_setUser_ne _ _ hvu]
    exact h.others w v hv
  · intro w
    have hkey : w ∈ (Halieutics.drop d u).audiences ↔ w ≠ uid ∧ w ∈ d.audiences := by
      rw [show (Halieutics.drop d u).audiences = d.audiences.erase (d.objs u).id from rfl,
        AList.mem_erase, hid]
    simp only [hkey, h.audience, hmap]
    constructor
    · rintro ⟨hw, v, hv, hn⟩
      exact ⟨v, ⟨hw, hv⟩, hn⟩
    · rintro ⟨v, ⟨hw, hv⟩, hn⟩
      exact ⟨hw, v, hv, hn⟩

/-- A user stands up: his seat is free again. -/
theorem SeatBase.unseat {seat : ℤ} {v : Ref} (hv : d.users.lookup seat = some v)
    (h : SeatBase d l) : SeatBase (unseat d seat v) l := by
  have hocc : (occupants d l).Perm (v :: occupants (Halieutics.unseat d seat v) l) :=
    (vals_perm_erase hv).append_right _
  refine ⟨?_, ?_, ?_, ?_⟩
  · refine List.Perm.trans ?_ h.parts
    have hk : seat ∈ d.users.keys := lookup_isSome_iff_mem_keys.1 (by rw [hv]; rfl)
    simp only [Halieutics.unseat, Desk.setUser, AList.keys_erase, List.append_assoc]
    refine List.Perm.append_left _ ?_
    rw [← List.append_assoc]
    exact (List.perm_cons_erase hk).symm.append_right _
  · intro w hw
    exact h.known w (hocc.mem_iff.2 (List.mem_cons_of_mem _ hw))
  · simp only [id_unseat]
    have hn := (hocc.map fun u => (d.objs u).id).nodup_iff.1 h.once
    rw [List.map_cons] at hn
    exact hn.of_cons
  · intro uid w hw
    rw [id_unseat]
    exact h.ids uid w hw

theorem SeatFull.unseat {seat : ℤ} {v : Ref} (hb : SeatBase d l) (hv : d.users.lookup seat = some v)
    (h : SeatFull d l) : SeatFull (unseat d seat v) l := by
  have hvals : (vals d.users).Perm (v :: vals (Halieutics.unseat d seat v).users) :=
    vals_perm_erase hv
  have hvs := h.seated seat v hv
  have hself : (Halieutics.unseat d seat v).objs v
      = { d.objs v with audience := some true, seat := -1 } := objs_setUser_self _ _ _
  refine ⟨?_, ?_, ?_, ?_⟩
  · intro seat' w hw
    rw [show (Halieutics.unseat d seat v).users = d.users.erase seat from rfl,
      lookup_erase_eq] at hw
    split at hw
    · simp at hw
    · rename_i hne
      have hws := h.seated seat' w hw
      refine Sits.setUser ?_ ⟨hws.seat, hws.audience, hws.joined⟩
      rintro rfl
      exact hne (hws.seat.symm.trans hvs.seat)
  · intro w seat' hw
    have hws := h.pending w seat' hw
    refine Sits.setUser ?_ ⟨hws.seat, hws.audience, hws.joined⟩
    rintro rfl
    exact (List.nodup_append.1 hb.occupants_nodup).2.2 w (mem_vals.2 ⟨seat, hv⟩) w
      (List.mem_map.2 ⟨_, hw, rfl⟩) rfl
  · intro uid w hw
    by_cases hwv : w = v
    · subst hwv
      rw [hself]
      exact Or.inr ⟨rfl, rfl⟩
    · rw [show (Halieutics.unseat d seat v).objs w = d.objs w from objs_setUser_ne _ _ hwv]
      refine (h.others uid w hw).imp_left fun hm => ?_
      rcases List.mem_append.1 hm with hm | hm
      · exact List.mem_append_left _ ((List.mem_cons.1 (hvals.mem_iff.1 hm)).resolve_left hwv)
      · exact List.mem_append_right _ hm
  · intro uid
    have hnot : v ∉ vals (Halieutics.unseat d seat v).users :=
      (List.nodup_cons.1 (hvals.nodup_iff.1 hb.vals_nodup)).1
    rw [show (Halieutics.unseat d seat v).audiences = d.audiences.insert (d.objs v).id () from rfl,
      show (Halieutics.unseat d seat v).usermap = d.usermap from rfl, AList.mem_insert, h.audience]
    constructor
    · rintro (rfl | ⟨w, hw, hn⟩)
      · exact ⟨v, hvs.joined, hnot⟩
      · exact ⟨w, hw, fun hm => hn (hvals.mem_iff.2 (List.mem_cons_of_mem _ hm))⟩
    · rintro ⟨w, hw, hn⟩
      by_cases hwv : w = v
      · subst hwv
        exact Or.inl (hb.id_eq hw).symm
      · refine Or.inr ⟨w, hw, fun hm => hn ?_⟩
        exact (List.mem_cons.1 (hvals.mem_iff.1 hm)).resolve_left hwv

/-- A new user joins. -/
theorem SeatBase.joinin {user : User} (h : SeatBase d l) : SeatBase (joinin d user) l := by
  have hobjs : ∀ v, v < d.nobj → (Halieutics.joinin d user).objs v = d.objs v :=
    fun v hv => Function.update_of_ne (Nat.ne_of_lt hv) _ _
  refine ⟨h.parts, fun u hu => Nat.lt_succ_of_lt (h.known u hu), ?_, ?_⟩
  · refine (List.map_congr_left fun v hv => ?_).subst (motive := List.Nodup) h.once
    rw [hobjs v (h.known v hv)]
  · intro uid v hv
    rw [show (Halieutics.joinin d user).usermap = d.usermap.insert user.id d.nobj from rfl,
      lookup_insert_eq] at hv
    split at hv
    · rename_i hw
      obtain rfl := Option.some_inj.1 hv
      exact ⟨by simp [Halieutics.joinin, hw], Nat.lt_succ_self _⟩
    · obtain ⟨hi, hlt⟩ := h.ids uid v hv
      exact ⟨by rw [hobjs v hlt, hi], Nat.lt_succ_of_lt hlt⟩

theorem SeatFull.joinin {user : User} (hb : SeatBase d l) (hseat : user.seat = -1)
    (haud : user.audience = some true) (hnew : d.usermap.lookup user.id = none)
    (h : SeatFull d l) : SeatFull (joinin d user) l := by
  have hobjs : ∀ v, v < d.nobj → (Halieutics.joinin d user).objs v = d.objs v :=
    fun v hv => Function.update_of_ne (Nat.ne_of_lt hv) _ _
  have hnobj : (Halieutics.joinin d user).objs d.nobj = user := Function.update_self _ _ _
  have hmap : ∀ w, (Halieutics.joinin d user).usermap.lookup w
      = if w = user.id then some d.nobj else d.usermap.lookup w :=
    fun w => lookup_insert_eq _ _ w _
  have hsits : ∀ v ∈ occupants d l, ∀ seat, Sits d v seat →
      Sits (Halieutics.joinin d user) v seat := by
    intro v hv seat hs
    have hlt := hb.known v hv
    refine ⟨by rw [hobjs v hlt]; exact hs.seat, by rw [hobjs v hlt]; exact hs.audience, ?_⟩
    rw [hobjs v hlt, hmap, if_neg, hs.joined]
    intro he
    have hj := hs.joined
    rw [he, hnew] at hj
    simp at hj
  have hout : d.nobj ∉ vals d.users := fun hm =>
    Nat.lt_irrefl _ (hb.known _ (List.mem_append_left _ hm))
  refine ⟨?_, ?_, ?_, ?_⟩
  · intro seat v hv
    exact hsits v (List.mem_append_left _ (mem_vals.2 ⟨seat, hv⟩)) seat (h.seated seat v hv)
  · intro v seat hv
    exact hsits v (List.mem_append_right _ (List.mem_map.2 ⟨_, hv, rfl⟩)) seat
      (h.pending v seat hv)
  · intro uid v hv
    rw [hmap] at hv
    split at hv
    · obtain rfl := Option.some_inj.1 hv
      rw [hnobj]
      exact Or.inr ⟨hseat, haud⟩
    · rw [hobjs v (hb.ids uid v hv).2]
      exact h.others uid v hv
  · intro uid
    rw [show (Halieutics.joinin d user).audiences = d.audiences.insert user.id () from rfl,
      show (Halieutics.joinin d user).users = d.users from rfl, AList.mem_insert, h.audience, hmap]
    by_cases hu : uid = user.id
    · simp [hu, hout]
    · simp [hu]

/-- A seat is assigned to a user who has none and is not about to get one. -/
theorem SeatBase.assign {uid : ℕ} {u : Ref} {seat : ℤ} {rest : List ℤ}
    (hu : d.usermap.lookup uid = some u) (ht : Takes d.freeseats seat rest)
    (hno : ∀ v ∈ occupants d l, (d.objs v).id ≠ uid) (h : SeatBase d l) :
    SeatBase (assignSeat d u seat rest) (.sitAdd u seat :: l) := by
  have hocc : (occupants (assignSeat d u seat rest) (.sitAdd u seat :: l)).Perm
      (u :: occupants d l) := List.perm_middle
  refine ⟨?_, ?_, ?_, ?_⟩
  · refine List.Perm.trans ?_ h.parts
    refine List.Perm.trans ?_ ((ht.2 h.freeseats_nodup).append_right _).symm
    change (rest ++ (d.users.keys ++ seat :: (pending l).map Prod.snd)).Perm _
    refine (List.Perm.append_left _ List.perm_middle).trans ?_
    exact List.perm_middle
  · intro v hv
    rcases List.mem_cons.1 (hocc.mem_iff.1 hv) with rfl | hv
    · exact (h.ids uid v hu).2
    · exact h.known v hv
  · simp only [id_assignSeat]
    rw [(hocc.map _).nodup_iff, List.map_cons, List.nodup_cons]
    refine ⟨?_, h.once⟩
    rw [h.id_eq hu]
    intro hm
    obtain ⟨v, hv, hvu⟩ := List.mem_map.1 hm
    exact hno v hv hvu
  · intro w v hv
    rw [id_assignSeat]
    exact h.ids w v hv

theorem SeatFull.assign {uid : ℕ} {u : Ref} {seat : ℤ} {rest : List ℤ} (hb : SeatBase d l)
    (hu : d.usermap.lookup uid = some u) (hno : ∀ v ∈ occupants d l, (d.objs v).id ≠ uid)
    (h : SeatFull d l) : SeatFull (assignSeat d u seat rest) (.sitAdd u seat :: l) := by
  have hself : (assignSeat d u seat rest).objs u
      = { d.objs u with game := some 0, seat := seat, audience := some false } :=
    objs_setUser_self _ _ _
  have hne : ∀ v ∈ occupants d l, v ≠ u := by
    rintro v hv rfl
    exact hno v hv (hb.id_eq hu)
  have hsits : ∀ v ∈ occupants d l, ∀ seat', Sits d v seat' →
      Sits (assignSeat d u seat rest) v seat' := by
    intro v hv seat' hs
    exact Sits.setUser (hne v hv) ⟨hs.seat, hs.audience, hs.joined⟩
  refine ⟨?_, ?_, ?_, ?_⟩
  · intro seat' v hv
    exact hsits v (List.mem_append_left _ (mem_vals.2 ⟨seat', hv⟩)) seat' (h.seated seat' v hv)
  · intro v seat' hv
    rcases List.mem_cons.1 (show (v, seat') ∈ (u, seat) :: Halieutics.pending l from hv)
      with he | hv
    · obtain ⟨rfl, rfl⟩ := Prod.mk.inj he
      refine ⟨by rw [hself], by rw [hself], ?_⟩
      rw [hself]
      change d.usermap.lookup (d.objs v).id = some v
      rw [hb.id_eq hu, hu]
    · exact hsits v (List.mem_append_right _ (List.mem_map.2 ⟨_, hv, rfl⟩)) seat'
        (h.pending v seat' hv)
  · intro w v hv
    by_cases hvu : v = u
    · subst hvu
      exact Or.inl (List.mem_append_right _ (List.mem_cons_self ..))
    · rw [show (assignSeat d u seat rest).objs v = d.objs v from objs_setUser_ne _ _ hvu]
      refine (h.others w v hv).imp_left fun hm => ?_
      rcases List.mem_append.1 hm with hm | hm
      · exact List.mem_append_left _ hm
      · exact List.mem_append_right _ (List.mem_cons_of_mem _ hm)
  · exact h.audience

/-- The seat that was pending is taken. -/
theorem SeatBase.seated {u : Ref} {seat : ℤ} (h : SeatBase d (.sitAdd u seat :: l)) :
    SeatBase (seatUser d u seat) l ∧ d.users.lookup seat = none := by
  have hparts : (d.freeseats ++ (d.users.keys ++ seat :: (pending l).map Prod.snd)).Nodup := h.nodup
  have hkey : seat ∉ d.users.keys := by
    intro hm
    have hn := (List.nodup_append.1 (List.nodup_append.1 hparts).2.1).2.2
    exact hn seat hm seat List.mem_cons_self rfl
  have hnone : d.users.lookup seat = none := by
    rw [← Option.not_isSome_iff_eq_none, lookup_isSome_iff_mem_keys]
    exact hkey
  have hocc : (occupants d (.sitAdd u seat :: l)).Perm (occupants (seatUser d u seat) l) := by
    change (vals d.users ++ u :: (pending l).map Prod.fst).Perm
      (vals (d.users.insert seat u) ++ (pending l).map Prod.fst)
    rw [vals_insert hnone]
    exact List.perm_middle
  refine ⟨⟨?_, ?_, ?_, ?_⟩, hnone⟩
  · refine List.Perm.trans ?_ h.parts
    change (d.freeseats ++ ((d.users.insert seat u).keys ++ (pending l).map Prod.snd)).Perm
      (d.freeseats ++ (d.users.keys ++ seat :: (pending l).map Prod.snd))
    rw [AList.keys_insert, List.erase_of_not_mem hkey]
    exact List.Perm.append_left _ List.perm_middle.symm
  · intro v hv
    exact h.known v (hocc.mem_iff.2 hv)
  · exact (hocc.map _).nodup_iff.1 h.once
  · exact h.ids

theorem SeatFull.sit {u : Ref} {seat : ℤ} (hb : SeatBase d (.sitAdd u seat :: l))
    (h : SeatFull d (.sitAdd u seat :: l)) : SeatFull (seatUser d u seat) l := by
  have hnone := hb.seated.2
  have hus : Sits d u seat := h.pending u seat List.mem_cons_self
  have hsits : ∀ v seat', Sits d v seat' → Sits (seatUser d u seat) v seat' :=
    fun v seat' hs => ⟨hs.seat, hs.audience, hs.joined⟩
  refine ⟨?_, ?_, ?_, ?_⟩
  · intro seat' v hv
    rw [show (seatUser d u seat).users = d.users.insert seat u from rfl, lookup_insert_eq] at hv
    split at hv
    · rename_i he
      obtain rfl := Option.some_inj.1 hv
      exact hsits _ _ (he ▸ hus)
    · exact hsits _ _ (h.seated seat' v hv)
  · intro v seat' hv
    exact hsits _ _ (h.pending v seat' (List.mem_cons_of_mem _ hv))
  · intro w v hv
    refine (h.others w v hv).imp_left fun hm => ?_
    change v ∈ vals (d.users.insert seat u) ++ _
    rw [vals_insert hnone]
    rcases List.mem_append.1 hm with hm | hm
    · exact List.mem_append_left _ (List.mem_cons_of_mem _ hm)
    · rcases List.mem_cons.1 hm with rfl | hm
      · exact List.mem_append_left _ List.mem_cons_self
      · exact List.mem_append_right _ hm
  · intro w
    rw [show (seatUser d u seat).audiences = d.audiences.erase (d.objs u).id from rfl,
      show (seatUser d u seat).usermap = d.usermap from rfl,
      show (seatUser d u seat).users = d.users.insert seat u from rfl, vals_insert hnone,
      AList.mem_erase, h.audience]
    constructor
    · rintro ⟨hw, v, hv, hn⟩
      refine ⟨v, hv, fun hm => ?_⟩
      rcases List.mem_cons.1 hm with rfl | hm
      · exact hw (hb.id_eq hv).symm
      · exact hn hm
    · rintro ⟨v, hv, hn⟩
      refine ⟨?_, v, hv, fun hm => hn (List.mem_cons_of_mem _ hm)⟩
      rintro rfl
      rw [hus.joined] at hv
      exact hn (List.mem_cons.2 (Or.inl (Option.some_inj.1 hv).symm))

end Steps

/-! ### Every piece of work -/

/-- The user who is about to take a seat, or to be charged for it. -/
def Pc.taker? : Pc → Option Ref
  | .sitAdd u _ => some u
  | .sitUse u => some u
  | _ => none

/-- **What a piece of work can do to the tables of users**; `S` says for whom it may assign a
seat. -/
inductive SeatEffect (S : ℕ → Prop) (d : Desk) : Out → Prop
  | same {o : Out} : SameSeats d o.d → (∀ pc ∈ o.pcs, pc.taker? = none) → SeatEffect S d o
  | drop {d' : Desk} {u : Ref} {k : AfterKick} : SameSeats d d' →
      (∀ k', k = .leave k' → (∃ uid, d'.usermap.lookup uid = some u) ∧
        (d'.objs u).audience ≠ some false) →
      SeatEffect S d (kickUser d' u k)
  | stand {d' : Desk} {seat : ℤ} {v : Ref} {k : AfterStandup} : SameSeats d d' →
      d'.users.lookup seat = some v →
      SeatEffect S d (.wait (unseat d' seat v) (.standRemove (d'.objs v).id k))
  | join {d' : Desk} {user : User} : SameSeats d d' → user.seat = -1 →
      user.audience = some true → d'.usermap.lookup user.id = none →
      SeatEffect S d (.wait (joinin d' user) (.joinAdd d'.nobj))
  | assign {d' : Desk} {uid : ℕ} {u : Ref} {seat : ℤ} {rest : List ℤ} : SameSeats d d' → S uid →
      d'.hasSeat uid = false → d'.usermap.lookup uid = some u → Takes d'.freeseats seat rest →
      SeatEffect S d (.wait (assignSeat d' u seat rest) (.sitAdd u seat))

theorem taker?_of_plain {pc : Pc} (h : pc.plain = true) : pc.taker? = none := by
  cases pc <;> simp_all [Pc.plain, Pc.taker?]

theorem taker?_of_walk {pc : Pc} {x : Walk × Stage} (h : pc.walk? = some x) :
    pc.taker? = none := by
  cases pc <;> simp_all [Pc.walk?, Pc.taker?]

theorem sitting?_of_taker {pc : Pc} (h : pc.taker? = none) : pc.sitting? = none := by
  cases pc <;> simp_all [Pc.taker?, Pc.sitting?]

theorem pending_eq_nil {l : List Pc} (h : ∀ pc ∈ l, pc.taker? = none) : pending l = [] :=
  List.filterMap_eq_nil_iff.2 fun pc hpc => sitting?_of_taker (h pc hpc)

/-- A walk begins: no table is touched. -/
theorem taker?_startWalk (d : Desk) (userid : Option ℕ) (k : AfterBack) :
    ∀ pc ∈ (startWalk d userid k).pcs, pc.taker? = none := by
  obtain ⟨pc, w, st, h, hw, -⟩ := startWalk_cases d userid k
  rw [h]
  simpa using taker?_of_walk hw

theorem Effect.seat {W : Prop} {S : ℕ → Prop} {G U : Prop} {d d' : Desk} {o : Out}
    (hs : SameSeats d d') (h : Effect W S G U d'.core o) : SeatEffect S d o := by
  have same : ∀ {e : Desk}, Near G d'.core e → SameSeats d e := fun hn =>
    hs.trans (sameSeats_of_base (hn.base.trans (base_core d')))
  cases h with
  | same hc hpc _ => exact .same (same hc) fun pc h => taker?_of_plain (hpc pc h).1
  | drop hc hk => exact .drop (same hc) hk
  | stand hc _ hv _ => exact .stand (same hc) hv
  | walk hc _ => exact .same (by rw [startWalk_d]; exact same hc) (taker?_startWalk _ _ _)
  | join hc hseat ha hn => exact .join (same hc) hseat ha hn
  | assign hc hS hno hu ht => exact .assign (same hc) hS hno hu ht

/-- Paying back touches the tables only once it is done, and charging does not touch them. -/
theorem seatEffect_segment (d : Desk) (inp : Inp) {pc : Pc} {S : ℕ → Prop}
    (hplain : pc.plain = false) (hsit : pc.sitting? = none) :
    SeatEffect S d (segment d inp pc) := by
  have walks : ∀ w, SeatEffect S d (walkOn d w) := by
    intro w
    obtain ⟨w', pc', h, -, -, -, ⟨c, rfl⟩ | rfl⟩ := walk_cases d w ((d.tabs w.tab).drop w.i)
    · rw [walkOn, h]; exact .same (.refl d) (by simp [Pc.taker?])
    · rw [walkOn, h]; exact .same (.refl d) (by simp [Pc.taker?])
  cases pc with
  | sitUse u =>
      dsimp only [segment]
      split
      · exact .same (.refl d) (by simp [Pc.taker?])
      · exact .same (.refl d) (by simp [Pc.taker?])
  | sitRecord u =>
      dsimp only [segment]
      split
      · exact .same ⟨rfl, rfl, rfl, rfl, rfl, rfl, fun _ => rfl, rfl⟩
          (by simp [deskCostBackup, Pc.taker?])
      · exact .same (.refl d) (by simp [Pc.taker?])
  | sitCost u c => exact (effect_sitEnd (W := False) (G := False) (U := False) d u).seat (.refl d)
  | backRecord w c => exact .same (.refl d) (by simp [segment, Pc.taker?])
  | backAdd w c => exact .same (.refl d) (by simp [segment, Pc.taker?])
  | backQuery w c =>
      dsimp only [segment]
      split
      · exact .same (.refl d) (by simp [Pc.taker?])
      · exact walks _
  | backPush w c =>
      dsimp only [segment]
      split
      · exact .same (.refl d) (by simp [Pc.taker?])
      · exact walks _
  | backSave w =>
      refine (effect_afterBack (W := False) (G := False) (U := True) (replaceCosts d w.costs) w.k
        fun _ _ _ => trivial).seat ?_
      exact ⟨rfl, rfl, rfl, rfl, rfl, rfl, fun _ => rfl, rfl⟩
  | sitAdd u seat => simp [Pc.sitting?] at hsit
  | _ => simp [Pc.plain] at hplain

/-- **Every piece of work that does not take a pending seat has one of the effects.** -/
theorem seatEffect_job (d : Desk) (inp : Inp) {j : Job} (hj : pending j.pcs = []) :
    SeatEffect (fun uid => ∃ seat, j = .req (.sitdown uid seat)) (j.called d inp)
      (j.out d inp) := by
  by_cases hplain : ∀ pc ∈ j.pcs, pc.plain = true
  · exact (effect_job d inp hplain).seat (.refl _)
  · cases j with
    | req r => simp [Job.pcs] at hplain
    | cmd u c => simp [Job.pcs] at hplain
    | seg pc =>
        refine seatEffect_segment (executed d inp pc) inp (by simpa [Job.pcs] using hplain) ?_
        exact List.filterMap_eq_nil_iff.1 hj pc (by simp [Job.pcs])

/-- The pending seat is taken, and the charge is next. -/
theorem sitSeated_same (d : Desk) (u : Ref) (seat : ℤ) :
    SameSeats (seatUser d u seat) (sitSeated d u seat).d ∧
      ((sitSeated d u seat).pcs = [.sitUse u] ∨ (sitSeated d u seat).pcs = []) := by
  unfold sitSeated
  dsimp only
  split
  · exact ⟨.refl _, Or.inl rfl⟩
  · refine ⟨sameSeats_of_base (base_of_core ?_), Or.inr rfl⟩
    unfold sitEnd
    dsimp only
    split
    · exact core_setUser (seatUser d u seat) u (fun x => { x with ready := true }) fun _ => rfl
    · rfl

section Job

variable {S : ℕ → Prop} {d : Desk} {o : Out} {rest : List Pc}

/-- Nobody for whom a seat may be assigned has one pending. -/
def ApartFrom (S : ℕ → Prop) (d : Desk) (l : List Pc) : Prop :=
  ∀ uid, S uid → ∀ p ∈ pending l, (d.objs p.1).id ≠ uid

theorem not_occupant {d' : Desk} {uid : ℕ} (hs : SameSeats d d') (hA : ApartFrom S d rest)
    (hS : S uid) (hno : d'.hasSeat uid = false) : ∀ v ∈ occupants d' rest,
    (d'.objs v).id ≠ uid := by
  intro v hv
  rcases List.mem_append.1 hv with hv | hv
  · have := List.any_eq_false.1 hno v hv
    simpa using this
  · obtain ⟨p, hp, rfl⟩ := List.mem_map.1 hv
    rw [hs.id]
    exact hA uid hS p hp

theorem SeatBase.effect (hA : ApartFrom S d rest) (he : SeatEffect S d o) (h : SeatBase d rest) :
    SeatBase o.d (o.pcs ++ rest) := by
  cases he with
  | same hs hp => exact h.same hs (by rw [pending_append, pending_eq_nil hp, List.nil_append])
  | drop hs _ => exact ((h.same hs rfl).drop _).cons rfl
  | stand hs hv => exact ((h.same hs rfl).unseat hv).cons rfl
  | join hs _ _ _ => exact (h.same hs rfl).joinin.cons rfl
  | assign hs hS hno hu ht => exact (h.same hs rfl).assign hu ht (not_occupant hs hA hS hno)

theorem SeatFull.effect (hA : ApartFrom S d rest) (hb : SeatBase d rest)
    (hf : ∀ pc ∈ o.pcs, pc.freeing = false) (he : SeatEffect S d o) (h : SeatFull d rest) :
    SeatFull o.d (o.pcs ++ rest) := by
  cases he with
  | same hs hp => exact h.same hs (by rw [pending_append, pending_eq_nil hp, List.nil_append])
  | @drop d' u k hs hk =>
      cases k with
      | leave k =>
          obtain ⟨⟨uid, hu⟩, ha⟩ := hk k rfl
          exact ((h.same hs rfl).drop (hb.same hs rfl) hu ha).cons rfl
      | free r => simp [kickUser, Pc.freeing] at hf
  | stand hs hv => exact ((h.same hs rfl).unseat (hb.same hs rfl) hv).cons rfl
  | join hs hseat ha hn =>
      exact ((h.same hs rfl).joinin (hb.same hs rfl) hseat ha hn).cons rfl
  | assign hs hS hno hu ht =>
      exact (h.same hs rfl).assign (hb.same hs rfl) hu (not_occupant hs hA hS hno)

end Job

/-! ### Runs -/

/-- **The invariant of the tables**, which also says that nobody is inside `free_desk` before it has
begun. -/
structure SeatInv (d : Desk) (l : List Pc) : Prop where
  base : SeatBase d l
  full : .mark .freeDesk ∉ d.life.acts → SeatFull d l
  freeing : ∀ pc ∈ l, pc.freeing = true → .mark .freeDesk ∈ d.life.acts

/-- **No user sits down while a seat is pending for him.** -/
def SitsApart (s : Sys) : Job → Prop
  | .req (.sitdown uid _) => ∀ p ∈ pending (pcs s), (s.shared.objs p.1).id ≠ uid
  | _ => True

instance (s : Sys) (j : Job) : Decidable (SitsApart s j) := by
  unfold SitsApart
  split <;> infer_instance

theorem SeatBase.called {d : Desk} {l : List Pc} (inp : Inp) (j : Job) (h : SeatBase d l) :
    SeatBase (j.called d inp) l := by
  cases j with
  | req r => exact h
  | cmd u c => exact h
  | seg pc =>
      dsimp only [Job.called, executed]
      split
      · exact h
      · exact ⟨h.parts, h.known, h.once, h.ids⟩

theorem SeatFull.called {d : Desk} {l : List Pc} (inp : Inp) (j : Job) (h : SeatFull d l) :
    SeatFull (j.called d inp) l := by
  cases j with
  | req r => exact h
  | cmd u c => exact h
  | seg pc =>
      dsimp only [Job.called, executed]
      split
      · exact h
      · have hsits : ∀ {r : Rpc} {u : Ref} {seat : ℤ}, Sits d u seat → Sits (d.called r) u seat :=
          fun hs => ⟨hs.seat, hs.audience, hs.joined⟩
        exact ⟨fun seat u hu => hsits (h.seated seat u hu),
          fun u seat hu => hsits (h.pending u seat hu),
          h.others, h.audience⟩

/-- The work that takes a pending seat. -/
theorem sitAdd_of_pending {j : Job} (hj : pending j.pcs ≠ []) :
    ∃ u seat, j = .seg (.sitAdd u seat) := by
  cases j with
  | req r => exact absurd rfl hj
  | cmd u c => exact absurd rfl hj
  | seg pc => cases pc <;> first | exact ⟨_, _, rfl⟩ | exact absurd rfl hj

theorem SeatInv.perm {d : Desk} {l l' : List Pc} (hp : l.Perm l') (h : SeatInv d l) :
    SeatInv d l' := by
  have hpend : (pending l).Perm (pending l') := hp.filterMap _
  have hocc : (occupants d l).Perm (occupants d l') := (hpend.map _).append_left _
  refine ⟨⟨?_, ?_, ?_, h.base.ids⟩, ?_, fun pc hpc => h.freeing pc (hp.mem_iff.2 hpc)⟩
  · exact (((hpend.map _).symm.append_left _).append_left _).trans h.base.parts
  · exact fun u hu => h.base.known u (hocc.mem_iff.2 hu)
  · exact (hocc.map _).nodup_iff.1 h.base.once
  · intro hn
    obtain ⟨h₁, h₂, h₃, h₄⟩ := h.full hn
    refine ⟨h₁, fun u seat hu => h₂ u seat (hpend.mem_iff.2 hu), ?_, h₄⟩
    exact fun uid u hu => (h₃ uid u hu).imp_left hocc.mem_iff.1

/-- One piece of work. -/
theorem SeatInv.job {s : Sys} {j : Job} {inp : Inp} {rest : List Pc}
    (hp : (pcs s).Perm (j.pcs ++ rest)) (hone : OneNewDesk s.shared (pcs s)) (hC : SitsApart s j)
    (h : SeatInv s.shared (j.pcs ++ rest)) :
    SeatInv (j.out s.shared inp).d ((j.out s.shared inp).pcs ++ rest) := by
  have ht : ∀ pc ∈ j.pcs, pc.timely s.shared := fun pc hpc =>
    hone.timely pc (hp.mem_iff.2 (List.mem_append_left _ hpc))
  have hgrows : .mark .freeDesk ∈ s.shared.life.acts →
      .mark .freeDesk ∈ (j.out s.shared inp).d.life.acts := by
    obtain ⟨new, hnew, -⟩ := grows_job s.shared inp ht
    rw [hnew]
    exact List.mem_append_right _
  have hfree : ∀ pc ∈ (j.out s.shared inp).pcs ++ rest, pc.freeing = true →
      .mark .freeDesk ∈ (j.out s.shared inp).d.life.acts := by
    intro pc hpc hf
    rcases List.mem_append.1 hpc with hpc | hpc
    · rcases freeing_job s.shared inp ht hpc hf with ⟨p, hpm, hpf⟩ | hm
      · exact hgrows (h.freeing p (List.mem_append_left _ hpm) hpf)
      · exact hm
    · exact hgrows (h.freeing pc (List.mem_append_right _ hpc) hf)
  by_cases hj : pending j.pcs = []
  · have hpend : pending rest = pending (j.pcs ++ rest) := by
      rw [pending_append, hj, List.nil_append]
    have hA : ApartFrom (fun uid => ∃ seat, j = .req (.sitdown uid seat)) (j.called s.shared inp)
        rest := by
      rintro uid ⟨seat, rfl⟩ p hpm
      have hperm : (pending (pcs s)).Perm (pending rest) := hp.filterMap _
      exact hC p (hperm.mem_iff.2 hpm)
    have he := seatEffect_job s.shared inp hj
    have hb := (h.base.same (.refl _) hpend).called inp j
    refine ⟨hb.effect hA he, fun hn => ?_, hfree⟩
    refine SeatFull.effect hA hb ?_ he
      (((h.full fun hm => hn (hgrows hm)).same (.refl _) hpend).called inp j)
    intro pc hpc
    by_contra hf
    exact hn (hfree pc (List.mem_append_left _ hpc) (by simpa using hf))
  · -- the pending seat is taken
    obtain ⟨u, seat, rfl⟩ := sitAdd_of_pending hj
    obtain ⟨hsame, hpcs⟩ := sitSeated_same (executed s.shared inp (.sitAdd u seat)) u seat
    have hpend : pending ((Job.out s.shared inp (.seg (.sitAdd u seat))).pcs ++ rest)
        = pending rest := by
      have hnil : pending (Job.out s.shared inp (.seg (.sitAdd u seat))).pcs = [] := by
        rcases hpcs with hpcs | hpcs <;> exact congrArg pending hpcs
      rw [pending_append, hnil, List.nil_append]
    have hb := h.base.called inp (.seg (.sitAdd u seat))
    refine ⟨hb.seated.1.same hsame hpend, fun hn => ?_, hfree⟩
    have hfull := (h.full fun hm => hn (hgrows hm)).called inp (.seg (.sitAdd u seat))
    exact (SeatFull.sit hb hfull).same hsame hpend

section Runs

variable {id creater timelimit : ℕ} {pay : Pay} {s : Sys}

theorem seatFull_created : SeatFull (Desk.create id creater pay timelimit) [.monitor] := by
  refine ⟨?_, ?_, ?_, ?_⟩
  · intro seat u hu
    simp [Desk.create] at hu
  · intro u seat hu
    simp [Halieutics.pending, Pc.sitting?] at hu
  · intro uid u hu
    simp [Desk.create] at hu
  · intro uid
    simp [Desk.create]

/-- **The tables of users along every run** in which no user sits down while a seat is pending for
him. -/
theorem seatInv_of_sitsApart
    (h : desk.Reach (Under SitsApart) (created id creater pay timelimit) s) :
    SeatInv s.shared (pcs s) := by
  refine desk_inv ?_ ?_ ?_ ?_ ?_ (h.and_inv fun s hs => one_newDesk hs)
  · exact fun d l l' hp hI => hI.perm hp
  · intro d l b q hI
    have hs : SameSeats d { d with csBusy := b, csQueue := q } :=
      ⟨rfl, rfl, rfl, rfl, rfl, rfl, fun _ => rfl, rfl⟩
    exact ⟨hI.base.same hs rfl, fun hn => (hI.full hn).same hs rfl, hI.freeing⟩
  · intro d l u c hI
    refine ⟨hI.base.cons rfl, fun hn => (hI.full hn).cons rfl, ?_⟩
    intro pc hpc hf
    rcases List.mem_cons.1 hpc with rfl | hpc
    · simp [Pc.freeing] at hf
    · exact hI.freeing pc hpc hf
  · refine ⟨⟨?_, ?_, ?_, ?_⟩, fun _ => seatFull_created, ?_⟩
    · exact List.Perm.refl _
    · intro u hu
      exact absurd hu List.not_mem_nil
    · exact List.nodup_nil
    · intro uid u hu
      simp [created, Desk.create] at hu
    · simp [created, pcs, Pc.freeing]
  · rintro s e j inp rest ⟨hC, hone⟩ hj hp _ hI
    have hapart : SitsApart s j := by simpa [Under, hj] using hC
    exact hI.job hp hone hapart

/-- **The tables of a desk at which nothing is pending**: the seats are partitioned, and the user
objects agree with the tables. -/
structure SeatPartition (d : Desk) : Prop where
  nodup : d.freeseats.Nodup
  seats : (d.freeseats ++ d.users.keys).Perm d.seats
  seated : ∀ seat u, d.users.lookup seat = some u →
    (d.objs u).seat = seat ∧ (d.objs u).audience = some false
  others : ∀ uid u, d.usermap.lookup uid = some u → u ∉ vals d.users →
    (d.objs u).seat = -1 ∧ (d.objs u).audience = some true ∧ uid ∈ d.audiences
  audience : ∀ uid ∈ d.audiences, ∃ u, d.usermap.lookup uid = some u ∧ u ∉ vals d.users

theorem SeatInv.partition {d : Desk} {l : List Pc} (h : SeatInv d l) (hp : pending l = [])
    (hf : .mark .freeDesk ∉ d.life.acts) : SeatPartition d := by
  have hfull := h.full hf
  have hocc : occupants d l = vals d.users := by rw [occupants, hp, List.map_nil, List.append_nil]
  refine ⟨h.base.freeseats_nodup, ?_, ?_, ?_, ?_⟩
  · simpa [hp] using h.base.parts
  · exact fun seat u hu => ⟨(hfull.seated seat u hu).seat, (hfull.seated seat u hu).audience⟩
  · intro uid u hu hn
    obtain ⟨hs, ha⟩ := (hfull.others uid u hu).resolve_left (by rw [hocc]; exact hn)
    exact ⟨hs, ha, (hfull.audience uid).2 ⟨u, hu, hn⟩⟩
  · exact fun uid hu => (hfull.audience uid).1 hu

theorem pending_of_idle (hi : Idle s) : pending (pcs s) = [] := by
  refine List.filterMap_eq_nil_iff.2 fun pc hpc => ?_
  obtain ⟨co, hco, rfl⟩ := List.mem_map.1 hpc
  have := hi co hco
  cases hpc : co.pc <;> simp_all [Pc.background, Pc.sitting?]

/-- Requests that do not overlap meet the condition. -/
theorem sitsApart_of_complete (e : Ev) (h : Complete s e) : Under SitsApart s e := by
  unfold Under
  split
  · trivial
  · rename_i j hj
    unfold SitsApart
    split
    · rename_i uid seat hreq
      cases e with
      | call r inp =>
          rcases h with ht | ⟨hi, -⟩
          · cases r with
            | buildFish | clearTrace =>
                obtain rfl := Option.some_inj.1 hj
                simp at hreq
            | _ => simp [Req.timer] at ht
          · simp [pending_of_idle hi]
      | resume k inp =>
          obtain ⟨co, -, rfl⟩ := Option.map_eq_some_iff.1 hj
          simp at hreq
    · trivial

/-- **The seats are partitioned** whenever no request is in flight, until the desk is freed, when
requests do not overlap. -/
theorem seatPartition_of_complete (h : desk.Reach Complete (created id creater pay timelimit) s)
    (hi : Idle s) (hf : .mark .freeDesk ∉ s.shared.hist) : SeatPartition s.shared := by
  have hI := seatInv_of_sitsApart (h.mono fun s e => sitsApart_of_complete e)
  refine hI.partition (pending_of_idle hi) fun hm => hf ?_
  exact (List.mem_filter.1 hm).1

/-- The partition for a desk at which user 2 sits and user 3 watches. -/
theorem seatPartition_joinAndSit :
    ∃ s, desk.Reach Complete (created 100001 1 ⟨true, 3⟩ 30) s ∧ s.shared.users.keys = [1] ∧
      s.shared.audiences.keys = [3] ∧ SeatPartition s.shared := by
  obtain ⟨s, hs, hp⟩ := Machine.exists_reach
    (joinAndSit ++ [.call (.join 3 false) {}, .resume 1 {}, .resume 1 {}])
    (p := fun s => decide (Idle s ∧ .mark .freeDesk ∉ s.shared.hist ∧ s.shared.users.keys = [1] ∧
      s.shared.audiences.keys = [3])) (C := Complete)
    (i := created 100001 1 ⟨true, 3⟩ 30) (M := desk) (by decide +kernel)
  obtain ⟨hi, hf, hu, ha⟩ := of_decide_eq_true hp
  exact ⟨s, hs, hu, ha, seatPartition_of_complete hs hi hf⟩

end Runs

/-! ### Charges -/

/-- The charge for a seat was taken: `prop.use` left a number that is not negative. -/
def Act.charge (uid : ℕ) : Act → Bool
  | .rpc (.useProp id _ left) => id == uid && decide (0 ≤ left)
  | _ => false

/-- How often a user was charged for a seat. -/
def charges (uid : ℕ) (hist : List Act) : ℕ := hist.countP (Act.charge uid)

/-- How often a user took a seat. -/
def seatings (uid : ℕ) (hist : List Act) : ℕ := hist.count (.mark (.seated uid))

/-- The coroutine is about to charge the user. -/
def Pc.charges (d : Desk) (uid : ℕ) : Pc → Bool
  | .sitUse u => (d.objs u).id == uid
  | _ => false

theorem charges_filter (uid : ℕ) (hist : List Act) :
    charges uid (hist.filter Act.seat) = charges uid hist := by
  rw [charges, List.countP_filter, charges]
  congr 1
  funext a
  cases a with
  | rpc r => cases r <;> simp [Act.charge, Act.seat]
  | mark m => rfl

theorem seatings_filter (uid : ℕ) (hist : List Act) :
    seatings uid (hist.filter Act.seat) = seatings uid hist := List.count_filter rfl

/-- **Charges are covered by seats**: whoever was charged, or is about to be, took a seat for it. -/
structure Covered (d : Desk) (l : List Pc) : Prop where
  known : ∀ pc ∈ l, ∀ u, pc.taker? = some u → u < d.nobj
  users : ∀ uid u, d.usermap.lookup uid = some u → u < d.nobj
  covered : ∀ uid, charges uid d.hist + l.countP (Pc.charges d uid) ≤ seatings uid d.hist

section Covered

variable {S : ℕ → Prop} {d d' : Desk} {o : Out} {l rest : List Pc}

theorem charges_of_taker {pc : Pc} (uid : ℕ) (h : pc.taker? = none) : pc.charges d uid = false := by
  cases pc <;> simp_all [Pc.taker?, Pc.charges]

/-- User objects keep their ids. -/
theorem charges_congr {uid : ℕ} (hid : ∀ u, u < d.nobj → (d'.objs u).id = (d.objs u).id)
    (hk : ∀ pc ∈ l, ∀ u, pc.taker? = some u → u < d.nobj) :
    l.countP (Pc.charges d' uid) = l.countP (Pc.charges d uid) := by
  refine List.countP_congr fun pc hpc => ?_
  cases pc with
  | sitUse u => simp only [Pc.charges, hid u (hk _ hpc u rfl)]
  | _ => rfl

/-- Work that takes no seat and charges nobody. -/
theorem Covered.step (hid : ∀ u, u < d.nobj → (d'.objs u).id = (d.objs u).id)
    (hn : d.nobj ≤ d'.nobj)
    (hmap : ∀ uid u, d'.usermap.lookup uid = some u → u < d'.nobj)
    (hacts : d'.hist.filter Act.seat = d.hist.filter Act.seat)
    (hl : ∀ pc ∈ l, ∀ u, pc.taker? = some u → u < d'.nobj)
    (hc : ∀ uid, ∀ pc ∈ l, pc.charges d' uid = false) (h : Covered d rest) :
    Covered d' (l ++ rest) := by
  refine ⟨?_, hmap, ?_⟩
  · intro pc hpc u hu
    rcases List.mem_append.1 hpc with hpc | hpc
    · exact hl pc hpc u hu
    · exact Nat.lt_of_lt_of_le (h.known pc hpc u hu) hn
  · intro uid
    have hzero : l.countP (Pc.charges d' uid) = 0 :=
      List.countP_eq_zero.2 fun pc hpc => by simp [hc uid pc hpc]
    rw [List.countP_append, hzero, Nat.zero_add, charges_congr hid h.known, ← charges_filter,
      ← seatings_filter, hacts, charges_filter, seatings_filter]
    exact h.covered uid

/-- Work that takes no pending seat leaves the seats and the bills as they were, and asks nobody to
pay. -/
theorem SeatEffect.quiet (h : SeatEffect S d o) :
    o.d.hist.filter Act.seat = d.hist.filter Act.seat ∧
    (∀ u, u < d.nobj → (o.d.objs u).id = (d.objs u).id) ∧
    ∀ uid, ∀ pc ∈ o.pcs, pc.charges o.d uid = false := by
  cases h with
  | same hs hpc =>
      exact ⟨hs.acts, fun u _ => hs.id u, fun uid pc hm => charges_of_taker uid (hpc pc hm)⟩
  | @drop d' u k hs _ =>
      exact ⟨hs.acts, fun v _ => (id_drop d' u v).trans (hs.id v), by simp [kickUser, Pc.charges]⟩
  | @stand d' seat v k hs _ =>
      exact ⟨hs.acts, fun w _ => (id_unseat d' seat v w).trans (hs.id w), by simp [Pc.charges]⟩
  | @join d' user hs _ _ _ =>
      refine ⟨hs.acts, fun u hu => ?_, by simp [Pc.charges]⟩
      rw [← hs.nobj] at hu
      exact (congrArg User.id (Function.update_of_ne (Nat.ne_of_lt hu) _ _)).trans (hs.id u)
  | @assign d' uid u seat free hs _ _ _ _ =>
      exact ⟨hs.acts, fun w _ => (id_assignSeat d' u seat free w).trans
        (hs.id w), by simp [Pc.charges]⟩

theorem Covered.effect (he : SeatEffect S d o) (h : Covered d rest) :
    Covered o.d (o.pcs ++ rest) := by
  obtain ⟨hacts, hid, hno⟩ := he.quiet
  have users : ∀ {e : Desk}, SameSeats d e → ∀ uid u, e.usermap.lookup uid = some u →
    u < e.nobj := by
    intro e hs uid u hu
    rw [hs.nobj]
    exact h.users uid u (hs.usermap ▸ hu)
  cases he with
  | same hs hpc =>
      refine h.step hid (Nat.le_of_eq hs.nobj.symm) (users hs) hacts (fun pc hm u hu => ?_) hno
      rw [hpc pc hm] at hu
      cases hu
  | @drop d' u k hs _ =>
      refine h.step hid (Nat.le_of_eq hs.nobj.symm) (fun uid v hv => users hs uid v ?_) hacts
        (by simp [kickUser, Pc.taker?]) hno
      rw [show (kickUser d' u k).d.usermap = d'.usermap.erase (d'.objs u).id from rfl,
        lookup_erase_eq] at hv
      split at hv
      · cases hv
      · exact hv
  | @stand d' seat v k hs _ =>
      exact h.step hid (Nat.le_of_eq hs.nobj.symm) (fun uid u hu => users hs uid u hu) hacts
        (by simp [Pc.taker?]) hno
  | @join d' user hs _ _ _ =>
      refine h.step hid (Nat.le_succ_of_le (Nat.le_of_eq hs.nobj.symm)) (fun uid u hu => ?_) hacts
        (by simp [Pc.taker?]) hno
      rw [show (Out.wait (joinin d' user) (.joinAdd d'.nobj)).d.usermap
        = d'.usermap.insert user.id d'.nobj from rfl, lookup_insert_eq] at hu
      split at hu
      · obtain rfl := Option.some_inj.1 hu
        exact Nat.lt_succ_self _
      · exact Nat.lt_succ_of_lt (users hs uid u hu)
  | @assign d' uid u seat free hs _ _ hu _ =>
      refine h.step hid (Nat.le_of_eq hs.nobj.symm) (fun uid u hu => users hs uid u hu) hacts ?_ hno
      intro pc hpc v hv
      simp only [Out.pcs_wait, List.mem_singleton] at hpc
      subst hpc
      obtain rfl := Option.some_inj.1 hv
      exact users hs uid u hu

/-- Only `prop.use` charges. -/
theorem acts_executed (d : Desk) (inp : Inp) {pc : Pc} (h : ∀ u, pc ≠ .sitUse u) :
    (executed d inp pc).hist.filter Act.seat = d.hist.filter Act.seat := by
  unfold executed
  split
  · rfl
  · rename_i r hr
    have hr' : Act.seat (.rpc r) = false := by
      cases pc with
      | sitUse u => exact absurd rfl (h u)
      | fish pc => cases pc <;> simp_all [Pc.rpc] <;> subst hr <;> rfl
      | _ => simp_all [Pc.rpc] <;> subst hr <;> rfl
    simp [Desk.called, hr']

theorem Covered.perm (hp : l.Perm rest) (h : Covered d l) : Covered d rest := by
  refine ⟨fun pc hpc => h.known pc (hp.mem_iff.2 hpc), h.users, fun uid => ?_⟩
  rw [← hp.countP_eq]
  exact h.covered uid

theorem Covered.tail {pc : Pc} (h : Covered d (pc :: rest)) : Covered d rest := by
  refine ⟨fun pc' hpc => h.known pc' (List.mem_cons_of_mem _ hpc), h.users, fun uid => ?_⟩
  have := h.covered uid
  rw [List.countP_cons] at this
  omega

theorem Covered.executed (inp : Inp) {pc : Pc} (hpc : ∀ u, pc ≠ .sitUse u) (h : Covered d rest) :
    Covered (executed d inp pc) rest := by
  have hd : ∀ u, ((Halieutics.executed d inp pc).objs u).id = (d.objs u).id ∧
      (Halieutics.executed d inp pc).nobj = d.nobj ∧
      (Halieutics.executed d inp pc).usermap = d.usermap := by
    intro u
    unfold Halieutics.executed
    split <;> exact ⟨rfl, rfl, rfl⟩
  refine h.step (l := []) (fun u _ => (hd u).1) (Nat.le_of_eq (hd 0).2.1.symm) ?_
    (acts_executed d inp hpc) (by simp) (by simp)
  rw [(hd 0).2.1, (hd 0).2.2]
  exact h.users

/-- The user is charged. -/
theorem Covered.use (inp : Inp) {u : Ref} (h : Covered d (.sitUse u :: rest)) :
    Covered (Halieutics.executed d inp (.sitUse u)) rest := by
  refine ⟨h.tail.known, h.users, fun uid => ?_⟩
  have hc := h.covered uid
  rw [List.countP_cons] at hc
  change charges uid (.rpc (.useProp (d.objs u).id d.pay.total inp.ret) :: d.hist) +
    rest.countP (Pc.charges d uid) ≤ _
  have hs : seatings uid (Halieutics.executed d inp (.sitUse u)).hist = seatings uid d.hist :=
    List.count_cons_of_ne (by simp)
  rw [hs, charges, List.countP_cons]
  change charges uid d.hist + _ + _ ≤ _
  by_cases hid : (d.objs u).id = uid
  · simp only [Pc.charges, hid, beq_self_eq_true, if_true] at hc
    split <;> omega
  · have hfalse : Act.charge uid (.rpc (.useProp (d.objs u).id d.pay.total inp.ret)) = false := by
      simp [Act.charge, hid]
    rw [hfalse]
    split at hc <;> simp only [Bool.false_eq_true, if_false] <;> omega

/-- The user takes the seat, and may be charged next. -/
theorem Covered.sit {u : Ref} {seat : ℤ} (h : Covered d (.sitAdd u seat :: rest)) :
    Covered (sitSeated d u seat).d ((sitSeated d u seat).pcs ++ rest) := by
  obtain ⟨hs, hpcs⟩ := sitSeated_same d u seat
  have hu : u < d.nobj := h.known _ List.mem_cons_self u rfl
  have hid : ∀ v, ((sitSeated d u seat).d.objs v).id = (d.objs v).id := fun v => hs.id v
  refine ⟨?_, ?_, ?_⟩
  · intro pc hpc v hv
    rw [show (sitSeated d u seat).d.nobj = d.nobj from hs.nobj]
    rcases List.mem_append.1 hpc with hpc | hpc
    · rcases hpcs with hpcs | hpcs
      · rw [hpcs, List.mem_singleton] at hpc
        subst hpc
        obtain rfl := Option.some_inj.1 hv
        exact hu
      · rw [hpcs] at hpc
        simp at hpc
    · exact h.known pc (List.mem_cons_of_mem _ hpc) v hv
  · intro uid v hv
    rw [hs.usermap] at hv
    rw [hs.nobj]
    exact h.users uid v hv
  · intro uid
    have hc := h.tail.covered uid
    have hcharges : charges uid (sitSeated d u seat).d.hist = charges uid d.hist := by
      rw [← charges_filter, hs.acts, charges_filter]
      exact List.countP_cons_of_neg (by simp [Act.charge])
    have hseat : seatings uid (sitSeated d u seat).d.hist
        = seatings uid d.hist + if (d.objs u).id = uid then 1 else 0 := by
      rw [← seatings_filter, hs.acts, seatings_filter]
      simp [seatings, seatUser, Desk.mark, List.count_cons]
    have hpc : (sitSeated d u seat).pcs.countP (Pc.charges (sitSeated d u seat).d uid)
        ≤ if (d.objs u).id = uid then 1 else 0 := by
      rcases hpcs with hpcs | hpcs
      · rw [hpcs, List.countP_singleton]
        simp [Pc.charges, hid]
      · rw [hpcs]
        simp
    rw [List.countP_append, hcharges, hseat, charges_congr (fun v _ => hid v) h.tail.known]
    omega

/-- **Charges stay covered**, whatever overlaps. -/
theorem Covered.job (inp : Inp) {j : Job} (h : Covered d (j.pcs ++ rest)) :
    Covered (j.out d inp).d ((j.out d inp).pcs ++ rest) := by
  cases j with
  | req r => exact h.effect (seatEffect_job d inp (j := .req r) rfl)
  | cmd u c => exact h.effect (seatEffect_job d inp (j := .cmd u c) rfl)
  | seg pc =>
      by_cases hsit : ∃ u seat, pc = .sitAdd u seat
      · obtain ⟨u, seat, rfl⟩ := hsit
        exact (h.executed inp (by simp)).sit
      · have he := seatEffect_job d inp (j := .seg pc) (by
          cases pc <;> first | rfl | exact absurd ⟨_, _, rfl⟩ hsit)
        by_cases huse : ∃ u, pc = .sitUse u
        · obtain ⟨u, rfl⟩ := huse
          exact (Covered.use inp h).effect he
        · exact (h.tail.executed inp fun u hu => huse ⟨u, hu⟩).effect he

end Covered

section Runs

variable {C : Sys → Ev → Prop} {id creater timelimit : ℕ} {pay : Pay} {s : Sys}

theorem covered_of_reach (h : desk.Reach C (created id creater pay timelimit) s) :
    Covered s.shared (pcs s) := by
  refine desk_inv ?_ ?_ ?_ ?_ ?_ h
  · exact fun d l l' hp hI => hI.perm hp
  · exact fun d l b q hI => ⟨hI.known, hI.users, hI.covered⟩
  · intro d l u c hI
    refine ⟨?_, hI.users, ?_⟩
    · intro pc hpc v hv
      rcases List.mem_cons.1 hpc with rfl | hpc
      · simp [Pc.taker?] at hv
      · exact hI.known pc hpc v hv
    · intro uid
      rw [List.countP_cons_of_neg (by simp [Pc.charges])]
      exact hI.covered uid
  · refine ⟨?_, ?_, ?_⟩
    · simp [created, pcs, Pc.taker?]
    · simp [created, Desk.create]
    · simp [created, pcs, Pc.charges, charges, Desk.create, Act.charge]
  · intro s e j inp rest _ _ _ _ hI
    exact hI.job inp

/-- Nobody has two seats. -/
def OneSeat (d : Desk) : Prop :=
  ∀ seat seat' u u', d.users.lookup seat = some u → d.users.lookup seat' = some u' →
    (d.objs u).id = (d.objs u').id → seat = seat'

theorem SeatBase.oneSeat {d : Desk} {l : List Pc} (h : SeatBase d l) : OneSeat d := by
  intro seat seat' u u' hu hu' hid
  by_contra hne
  have hperm := vals_perm_erase hu
  have hmem : u' ∈ vals (d.users.erase seat) :=
    mem_vals.2 ⟨seat', by rw [AList.lookup_erase_ne (Ne.symm hne), hu']⟩
  have hn : ((u :: vals (d.users.erase seat)).map fun v => (d.objs v).id).Nodup := by
    refine (hperm.map _).nodup_iff.1 ?_
    have := h.once
    rw [occupants, List.map_append] at this
    exact (List.nodup_append.1 this).1
  rw [List.map_cons] at hn
  exact (List.nodup_cons.1 hn).1 (List.mem_map.2 ⟨u', hmem, hid.symm⟩)

/-- **Nobody has two seats, and nobody is charged more often than he takes a seat**, in every run in
which no user sits down while a seat is pending for him. -/
theorem oneSeat_of_sitsApart
    (h : desk.Reach (Under SitsApart) (created id creater pay timelimit) s) :
    OneSeat s.shared ∧ ∀ uid, charges uid s.shared.hist ≤ seatings uid s.shared.hist := by
  refine ⟨(seatInv_of_sitsApart h).base.oneSeat, fun uid => ?_⟩
  have := (covered_of_reach h).covered uid
  omega

/-- User 2 sits down, and is charged for it. -/
theorem oneSeat_joinAndSit :
    ∃ s, desk.Reach (Under SitsApart) (created 100001 1 ⟨true, 3⟩ 30) s ∧
      charges 2 s.shared.hist = 1 ∧ OneSeat s.shared ∧
      ∀ uid, charges uid s.shared.hist ≤ seatings uid s.shared.hist := by
  obtain ⟨s, hs, hp⟩ := Machine.exists_reach joinAndSit
    (p := fun s => decide (charges 2 s.shared.hist = 1)) (C := Under SitsApart)
    (i := created 100001 1 ⟨true, 3⟩ 30) (M := desk) (by decide +kernel)
  exact ⟨s, hs, of_decide_eq_true hp, oneSeat_of_sitsApart hs⟩

/-- **Two overlapping `sitdown` requests of one user take two seats.** -/
theorem sitdown_twice_takes_two_seats :
    ¬ ∀ (id creater timelimit : ℕ) (pay : Pay) (s : Sys),
      desk.Reach Always (created id creater pay timelimit) s →
        OneSeat s.shared ∧ ∀ uid, charges uid s.shared.hist ≤ seatings uid s.shared.hist := by
  intro hall
  obtain ⟨s, hs, hp⟩ := Machine.exists_reach
    ([.call (.join 2 false) {}, .resume 1 {}, .resume 1 {}, .call (.sitdown 2 none) {},
      .call (.sitdown 2 none) {}, .resume 1 {}, .resume 2 {}])
    (p := fun s => decide (s.shared.users.lookup 1 = some 0 ∧ s.shared.users.lookup 2 = some 0))
    (C := Always) (i := created 100001 1 ⟨true, 3⟩ 30) (M := desk) (by decide +kernel)
  obtain ⟨h₁, h₂⟩ := of_decide_eq_true hp
  exact absurd ((hall _ _ _ _ s hs).1 1 2 0 0 h₁ h₂ rfl) (by decide)

end Runs

end Halieutics
