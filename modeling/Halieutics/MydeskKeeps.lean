/-
**What the operations keep.**

The session of a user and the records about him in the other services agree whenever no operation is
in progress (`Halieutics.Mydesk.Sound`).  Within an operation of a desk they do not: a user who is
put out is first dropped by the desk, then by the user store, and the agent is told before or after.
`Halieutics.Mydesk.Stage` says how far each point of suspension has come, and one lemma for each
point carries the records over it.

Main definitions:

* `Halieutics.Mydesk.Home`, `Halieutics.Mydesk.Stored` — the desk the user is at; the desks he has
  created;
* `Halieutics.Mydesk.Sound` — **the records agree**;
* `Halieutics.Mydesk.Stage` — how far an operation has come.

Main results:

* `Halieutics.Mydesk.seated_job` — **the seats stay in order**, until the desk is freed;
* `Halieutics.Mydesk.good_standup`, `Halieutics.Mydesk.good_sitdown`,
  `Halieutics.Mydesk.good_forceDismiss`, `Halieutics.Mydesk.good_dismissApply`,
  `Halieutics.Mydesk.good_freeLoop` — **what the handlers leave behind** at their first yield.
-/

import Halieutics.Mydesk

set_option relaxedAutoImplicit false
set_option autoImplicit false

namespace Halieutics.Mydesk

open LuaTable

/-! ### Desks -/

/-- The desk `d'` has the same users as `d`. -/
structure Kept (d d' : Desk) : Prop where
  creater : d'.creater = d.creater
  live : d'.live = d.live
  usermap : d'.usermap = d.usermap
  nobj : d'.nobj = d.nobj
  id : ∀ u, (d'.objs u).id = (d.objs u).id
  source : ∀ u, (d.objs u).source = true → (d'.objs u).source = true

/-- Whoever is at the desk is known by his number, and his agent can be told. -/
structure Manned (d : Desk) : Prop where
  ids : ∀ uid u, d.usermap.lookup uid = some u → (d.objs u).id = uid ∧ u < d.nobj
  source : ∀ uid u, d.usermap.lookup uid = some u → (d.objs u).source = true

/-- The seats are in order. -/
structure Seated (d : Desk) (l : List Pc) : Prop where
  base : SeatBase d l
  full : SeatFull d l

section Desks

variable {d d' d'' : Desk} {o : Out} {l l' : List Pc}

theorem Kept.refl (d : Desk) : Kept d d := ⟨rfl, rfl, rfl, rfl, fun _ => rfl, fun _ h => h⟩

theorem Kept.trans (h : Kept d d') (h' : Kept d' d'') : Kept d d'' :=
  ⟨h'.creater.trans h.creater, h'.live.trans h.live, h'.usermap.trans h.usermap,
    h'.nobj.trans h.nobj,
    fun u => (h'.id u).trans (h.id u), fun u hu => h'.source u (h.source u hu)⟩

theorem kept_setUser (d : Desk) (u : Ref) {f : User → User} (hid : ∀ x, (f x).id = x.id)
    (hs : ∀ x, x.source = true → (f x).source = true) : Kept d (d.setUser u f) := by
  refine ⟨rfl, rfl, rfl, rfl, fun v => ?_, fun v hv => ?_⟩
  · exact id_setUser d u v hid
  · by_cases h : v = u
    · subst h
      rw [objs_setUser_self]
      exact hs _ hv
    · rw [objs_setUser_ne d f h]
      exact hv

theorem kept_mark (d : Desk) (m : Mark) : Kept d (d.mark m) :=
  ⟨rfl, rfl, rfl, rfl, fun _ => rfl, fun _ h => h⟩

theorem kept_executed (d : Desk) (inp : Inp) (pc : Pc) : Kept d (executed d inp pc) := by
  unfold executed
  split
  · exact .refl d
  · exact ⟨rfl, rfl, rfl, rfl, fun _ => rfl, fun _ h => h⟩

theorem kept_assignSeat (d : Desk) (u : Ref) (seat : ℤ) (rest : List ℤ) :
    Kept d (assignSeat d u seat rest) := by
  have h := kept_setUser { d with freeseats := rest, sync := d.sync.add seat true } u
    (f := fun x => { x with game := some 0, seat := seat, audience := some false }) (fun _ => rfl)
    (fun _ h => h)
  exact ⟨h.creater, h.live, h.usermap, h.nobj, h.id, h.source⟩

theorem kept_unseat (d : Desk) (seat : ℤ) (v : Ref) : Kept d (unseat d seat v) := by
  have h := kept_setUser { d with
      audiences := d.audiences.insert (d.objs v).id ()
      users := d.users.erase seat
      freeseats := d.freeseats ++ [seat] } v
    (f := fun x => { x with audience := some true, seat := -1 }) (fun _ => rfl) (fun _ h => h)
  exact ⟨h.creater, h.live, h.usermap, h.nobj, h.id, h.source⟩

theorem kept_sitEnd (d : Desk) (u : Ref) : ∃ d' r, sitEnd d u = .ret d' r ∧ Kept d d' := by
  unfold sitEnd
  dsimp only
  split
  · exact ⟨_, _, rfl, kept_setUser d u (fun _ => rfl) fun _ h => h⟩
  · exact ⟨_, _, rfl, .refl d⟩

theorem kept_changeandroidid (d : Desk) (uid : ℕ) : Kept d (changeandroidid d uid) := by
  unfold changeandroidid
  split
  · exact ⟨rfl, rfl, rfl, rfl, fun _ => rfl, fun _ h => h⟩
  · exact .refl d

theorem Manned.kept (hk : Kept d d') (h : Manned d) : Manned d' := by
  refine ⟨fun uid u hu => ?_, fun uid u hu => ?_⟩
  · rw [hk.usermap] at hu
    rw [hk.id, hk.nobj]
    exact h.ids uid u hu
  · rw [hk.usermap] at hu
    exact hk.source u (h.source uid u hu)

theorem Manned.mem_vals (h : Manned d) {u : Ref} (hu : u ∈ vals d.usermap) :
    d.usermap.lookup (d.objs u).id = some u := by
  obtain ⟨uid, hu⟩ := LuaTable.mem_vals.1 hu
  rw [(h.ids uid u hu).1]
  exact hu

/-- A user is dropped. -/
theorem Manned.drop (h : Manned d) (u : Ref) : Manned (drop d u) := by
  have hold : ∀ uid v, (Halieutics.drop d u).usermap.lookup uid = some v →
      d.usermap.lookup uid = some v := by
    intro uid v hv
    rw [show (Halieutics.drop d u).usermap = d.usermap.erase (d.objs u).id from rfl,
      lookup_erase_eq] at hv
    split at hv
    · cases hv
    · exact hv
  have hk := kept_setUser d u (f := fun x => { x with audience := none }) (fun _ => rfl)
    (fun _ h => h)
  refine ⟨fun uid v hv => ?_, fun uid v hv => ?_⟩
  · rw [id_drop]
    exact h.ids uid v (hold uid v hv)
  · exact hk.source v (h.source uid v (hold uid v hv))

theorem Seated.same (h : Seated d l) (hs : SameSeats d d') : Seated d' l :=
  ⟨h.base.same hs rfl, h.full.same hs rfl⟩

theorem Seated.congr (h : Seated d l) (hl : pending l' = pending l) : Seated d l' :=
  ⟨h.base.same (.refl d) hl, h.full.same (.refl d) hl⟩

/-- Nobody else sits down meanwhile. -/
theorem apart_nil (S : ℕ → Prop) (d : Desk) : ApartFrom S d [] := fun _ _ _ hp => by cases hp

/-- **The seats stay in order**, until the desk is freed. -/
theorem seated_job (d : Desk) (inp : Inp) {j : Job} (h : Seated d j.pcs)
    (hf : ∀ pc ∈ (j.out d inp).pcs, pc.freeing = false) :
    Seated (j.out d inp).d (j.out d inp).pcs := by
  have hb := h.base.called inp j
  have hfull := h.full.called inp j
  by_cases hj : pending j.pcs = []
  · have he := seatEffect_job d inp hj
    have hb' : SeatBase (j.called d inp) [] := hb.same (.refl _) hj.symm
    have hfull' : SeatFull (j.called d inp) [] := hfull.same (.refl _) hj.symm
    have hbase := SeatBase.effect (apart_nil _ _) he hb'
    have hseats := SeatFull.effect (apart_nil _ _) hb' hf he hfull'
    rw [List.append_nil] at hbase hseats
    exact ⟨hbase, hseats⟩
  · obtain ⟨u, seat, rfl⟩ := sitAdd_of_pending hj
    obtain ⟨hsame, hpcs⟩ := sitSeated_same (executed d inp (.sitAdd u seat)) u seat
    have hpend : pending (Job.out d inp (.seg (.sitAdd u seat))).pcs = pending [] := by
      rcases hpcs with hpcs | hpcs <;> exact (congrArg pending hpcs).trans rfl
    have hb' : SeatBase (seatUser (executed d inp (.sitAdd u seat)) u seat) [] := hb.seated.1
    have hfull' : SeatFull (seatUser (executed d inp (.sitAdd u seat)) u seat) [] :=
      SeatFull.sit hb hfull
    exact ⟨hb'.same hsame hpend, hfull'.same hsame hpend⟩

/-- Where a user sits. -/
theorem Seated.user (h : Seated d []) {uid : ℕ} {u : Ref} (hu : d.usermap.lookup uid = some u) :
    (d.users.lookup (d.objs u).seat = some u ∧ (d.objs u).seat ≠ -1) ∨
      ((d.objs u).seat = -1 ∧ (d.objs u).audience = some true) := by
  rcases h.full.others uid u hu with hocc | hout
  · have hmem : u ∈ vals d.users := by simpa [occupants, pending] using hocc
    obtain ⟨seat, hseat⟩ := LuaTable.mem_vals.1 hmem
    have hsits := (h.full.seated seat u hseat).seat
    rw [hsits]
    have hpos := h.base.seat_pos (lookup_isSome_iff_mem_keys.1 (by rw [hseat]; rfl))
    exact Or.inl ⟨hseat, by omega⟩
  · exact Or.inr hout

end Desks

/-! ### The records about a user -/

/-- The lobby has a desk with this number that the user has created. -/
def Owns (w : World) (me id : ℕ) : Prop := ∃ e, w.lobby.deskmap.lookup id = some e ∧ e.creater = me

/-- **The desks the user has created**, as far as the user store knows; `gone` is a desk that is
being freed. -/
def Stored (w : World) (me : ℕ) (gone : Option ℕ) : Prop :=
  ∀ s, s ∈ Userdb.created w.dbs me ↔ ∃ id : ℕ, some id ≠ gone ∧ s = id.repr ∧ Owns w me id

/-- **The desk the user is at**: the session and the user store agree, and the desk knows him. -/
structure Home (w : World) (me : ℕ) : Prop where
  stored : Userdb.getActiveDesk w.dbs me = (w.mydesk me).active.map Room.id
  there : ∀ r, (w.mydesk me).active = some r → (w.desks r.id).live = true ∧
    me ∈ (w.desks r.id).usermap ∧ r.desk.creater = (w.desks r.id).creater

/-- No number is twice in the buffer of the lobby, or both there and in `deskmap`. -/
structure Numbered (l : Lobby.Data) : Prop where
  nodup : l.buffer.Nodup
  free : ∀ id ∈ l.buffer, l.deskmap.lookup id = none

/-- The lobby, the desks, and the desks the user has created as far as his session knows. -/
structure Ground (w : World) (me : ℕ) : Prop where
  numbered : Numbered w.lobby
  live : ∀ id, (w.desks id).live = true ↔ (w.lobby.deskmap.lookup id).isSome = true
  creater : ∀ id e, w.lobby.deskmap.lookup id = some e → (w.desks id).creater = e.creater
  created : ∀ id, id ∈ (w.mydesk me).ids ↔ Owns w me id
  once : (w.mydesk me).ids.Nodup

/-- A desk between the operations. -/
def Staffed (d : Desk) : Prop := d.live = true → Manned d ∧ Seated d []

/-- **The records agree.** -/
structure Sound (w : World) (me : ℕ) : Prop where
  ground : Ground w me
  staffed : ∀ id, Staffed (w.desks id)
  stored : Stored w me none
  home : Home w me

/-- What holds throughout an operation of the desk `id`, whatever it does to the user. -/
structure Rest (w : World) (me id : ℕ) : Prop where
  ground : Ground w me
  others : ∀ id', id' ≠ id → Staffed (w.desks id')
  live : (w.desks id).live = true
  manned : Manned (w.desks id)

/-- The plan of a walk of `back_roomcard`, and of `actstandup` after it. -/
def AfterBack.fits (d : Desk) : AfterBack → Prop
  | .standup u (.dismissApply v) => u = v ∧ d.usermap.lookup (d.objs v).id = some v
  | .standup _ .ret | .free _ => True

/-- What follows `desk.standup`: the user has no seat any more, and may leave. -/
def AfterStandup.fits (d : Desk) : AfterStandup → Prop
  | .ret => True
  | .dismissApply v => d.usermap.lookup (d.objs v).id = some v ∧ (d.objs v).audience ≠ some false

/-- **How far an operation of the desk `id` has come** when it is suspended. -/
def Stage (w : World) (me id : ℕ) : Pc → Prop
  | .sitAdd _ _ | .sitUse _ | .sitRecord _ | .sitCost _ _ => Stored w me none ∧ Home w me
  | .backRecord v _ | .backAdd v _ | .backQuery v _ | .backPush v _ | .backSave v =>
      Stored w me none ∧ Home w me ∧ AfterBack.fits (w.desks id) v.k
  | .standRemove _ k => Stored w me none ∧ Home w me ∧ AfterStandup.fits (w.desks id) k
  | .kickRemove uid (.leave (.dismissApply v)) | .kickLeave uid (.leave (.dismissApply v)) =>
      Stored w me none ∧ (uid ≠ me → Home w me) ∧ ((w.desks id).objs v).id = uid ∧
        ((w.desks id).objs v).source = true
  | .dismissAgent uid =>
      Stored w me none ∧ (uid ≠ me → Home w me) ∧ (uid = me → Userdb.getActiveDesk w.dbs me = none)
  | .freeAgent u _ =>
      Stored w me none ∧ Home w me ∧ (w.desks id).usermap.lookup ((w.desks id).objs u).id = some u
  | .kickRemove uid (.free _) | .kickLeave uid (.free _) =>
      Stored w me none ∧ (uid ≠ me → Home w me) ∧ (uid = me → (w.mydesk me).active = none)
  | .freeDismiss _ => Stored w me none ∧ Home w me ∧ vals (w.desks id).usermap = []
  | .freeGamedb _ | .freeLobby _ =>
      Stored w me (some id) ∧ Home w me ∧ vals (w.desks id).usermap = []
  | _ => False

/-- The operation is suspended at `pc`. -/
structure At (w : World) (me id : ℕ) (pc : Pc) : Prop where
  rest : Rest w me id
  seated : pc.freeing = false → Seated (w.desks id) [pc]
  stage : Stage w me id pc

/-- **What a segment of the desk `id` leaves behind.** -/
def Good (w : World) (me id : ℕ) (o : Out) : Prop :=
  match o.res with
  | .ret _ => Sound (w.setDesk id o.d) me
  | .wait pc => At (w.setDesk id o.d) me id pc

section Records

variable {w : World} {me id : ℕ} {d : Desk}

@[simp] theorem setDesk_self (w : World) (id : ℕ) (d : Desk) : (w.setDesk id d).desks id = d :=
  Function.update_self _ _ _

theorem setDesk_ne (w : World) {id id' : ℕ} (d : Desk) (h : id' ≠ id) :
    (w.setDesk id d).desks id' = w.desks id' := Function.update_of_ne h _ _

@[simp] theorem setDesk_setDesk (w : World) (id : ℕ) (d d' : Desk) :
    (w.setDesk id d).setDesk id d' = w.setDesk id d' := by
  rw [World.setDesk, World.setDesk, World.setDesk, Function.update_idem]

@[simp] theorem setDesk_desks (w : World) (id : ℕ) : w.setDesk id (w.desks id) = w := by
  rw [World.setDesk, Function.update_eq_self]

/-- A desk changes, but not its creater, and it stays registered. -/
theorem Ground.setDesk (hc : d.creater = (w.desks id).creater) (hl : d.live = (w.desks id).live)
    (h : Ground w me) : Ground (w.setDesk id d) me := by
  refine ⟨h.numbered, fun id' => ?_, fun id' e he => ?_, h.created, h.once⟩
  · refine Iff.trans ?_ (h.live id')
    by_cases hid : id' = id
    · subst hid
      rw [setDesk_self, hl]
    · rw [setDesk_ne w d hid]
  · refine Eq.trans ?_ (h.creater id' e he)
    by_cases hid : id' = id
    · subst hid
      rw [setDesk_self, hc]
    · rw [setDesk_ne w d hid]

/-- The user stays at his desk. -/
theorem Home.setDesk (hc : d.creater = (w.desks id).creater) (hl : d.live = (w.desks id).live)
    (hm : me ∈ (w.desks id).usermap → me ∈ d.usermap) (h : Home w me) :
    Home (w.setDesk id d) me := by
  refine ⟨h.stored, fun r hr => ?_⟩
  obtain ⟨hlive, hmem, hcreater⟩ := h.there r hr
  by_cases hid : r.id = id
  · rw [hid] at hlive hmem hcreater
    rw [hid, setDesk_self]
    exact ⟨hl.trans hlive, hm hmem, hcreater.trans hc.symm⟩
  · rw [setDesk_ne w d hid]
    exact ⟨hlive, hmem, hcreater⟩

theorem Home.kept (hk : Kept (w.desks id) d) (h : Home w me) : Home (w.setDesk id d) me :=
  h.setDesk hk.creater hk.live fun hm => by rw [hk.usermap]; exact hm

theorem Rest.setDesk (hc : d.creater = (w.desks id).creater) (hl : d.live = (w.desks id).live)
    (hm : Manned d) (h : Rest w me id) : Rest (w.setDesk id d) me id := by
  refine ⟨h.ground.setDesk hc hl, fun id' hid => ?_, ?_, ?_⟩
  · rw [setDesk_ne w d hid]
    exact h.others id' hid
  · rw [setDesk_self, hl]
    exact h.live
  · rw [setDesk_self]
    exact hm

theorem Rest.kept (hk : Kept (w.desks id) d) (h : Rest w me id) : Rest (w.setDesk id d) me id :=
  h.setDesk hk.creater hk.live (h.manned.kept hk)

theorem Sound.rest (h : Sound w me) (hl : (w.desks id).live = true) :
    Rest w me id ∧ Seated (w.desks id) [] :=
  ⟨⟨h.ground, fun id' _ => h.staffed id', hl, (h.staffed id hl).1⟩, (h.staffed id hl).2⟩

/-- The operation is over. -/
theorem Rest.sound (hs : Stored w me none) (hh : Home w me) (hseat : Seated (w.desks id) [])
    (h : Rest w me id) : Sound w me := by
  refine ⟨h.ground, fun id' hl => ?_, hs, hh⟩
  by_cases hid : id' = id
  · subst hid
    exact ⟨h.manned, hseat⟩
  · exact h.others id' hid hl

end Records

/-! ### The segments -/

/-- The records agree, and the desk `id` is registered. -/
structure Calm (w : World) (me id : ℕ) : Prop where
  rest : Rest w me id
  stored : Stored w me none
  home : Home w me

/-- The seats of a desk are in order after a segment, unless the desk is being freed. -/
def InOrder (o : Out) : Prop := (∀ pc ∈ o.pcs, pc.freeing = false) → Seated o.d o.pcs

section Segments

variable {w : World} {me id : ℕ} {d : Desk} {k : AfterStandup} {r : Ret}

theorem good_ret (h : Calm w me id) (hk : Kept (w.desks id) d) (hs : Seated d []) (r : Ret) :
    Good w me id (.ret d r) := by
  refine (h.rest.kept hk).sound h.stored (h.home.kept hk) ?_
  rw [setDesk_self]
  exact hs

/-- The operation is suspended, and has not yet touched the user. -/
theorem at_wait {pc : Pc} (h : Calm w me id) (hk : Kept (w.desks id) d)
    (hs : pc.freeing = false → Seated d [pc])
    (hstage : Stored (w.setDesk id d) me none → Home (w.setDesk id d) me →
    (w.setDesk id d).desks id = d →
      Stage (w.setDesk id d) me id pc) : At (w.setDesk id d) me id pc := by
  refine ⟨h.rest.kept hk, fun hpc => ?_, hstage h.stored (h.home.kept hk) (setDesk_self _ _ _)⟩
  rw [setDesk_self]
  exact hs hpc

/-- A user is dropped: he is known to the desk no more. -/
theorem Rest.drop (h : Rest w me id) (hk : Kept (w.desks id) d) (u : Ref) :
    Rest (w.setDesk id (drop d u)) me id :=
  h.setDesk hk.creater hk.live ((h.manned.kept hk).drop u)

theorem Home.drop (h : Home w me) (hk : Kept (w.desks id) d) {u : Ref} (hu : (d.objs u).id ≠ me) :
    Home (w.setDesk id (drop d u)) me := by
  refine h.setDesk hk.creater hk.live fun hm => ?_
  rw [← hk.usermap] at hm
  exact AList.mem_erase.2 ⟨Ne.symm hu, hm⟩

/-- The loop of `free_desk`. -/
theorem good_freeLoop (h : Calm w me id) (hk : Kept (w.desks id) d) (r : Ret) :
    Good w me id (freeLoop d r) := by
  unfold freeLoop
  have hm := h.rest.manned.kept hk
  cases hv : vals d.usermap with
  | nil =>
      refine at_wait h hk (fun hf => by cases hf) fun hs hh hd => ⟨hs, hh, ?_⟩
      rw [hd]
      exact hv
  | cons u us =>
      have hlook := hm.mem_vals (u := u) (by rw [hv]; exact List.mem_cons_self)
      have hsource := hm.source _ u hlook
      dsimp only
      rw [if_pos hsource]
      refine at_wait h hk (fun hf => by cases hf) fun hs hh hd => ⟨hs, hh, ?_⟩
      rw [hd]
      exact hlook

/-- **What `desk.leave` can do.** -/
theorem leave_cases (d : Desk) (uid : ℕ) (k : AfterLeave) :
    ((d.live = false ∨ d.usermap.lookup uid = none) ∧ ∃ msg, leave d uid k = .ret d (.raise msg)) ∨
    (∃ u, d.usermap.lookup uid = some u ∧ (d.objs u).audience = some false ∧
      leave d uid k = afterLeave d (.err .standupBeforeLeave) k) ∨
    ∃ u e, d.live = true ∧ d.usermap.lookup uid = some u ∧ Kept d e ∧ e.objs = d.objs ∧
      leave d uid k = kickUser e u (.leave k) := by
  unfold leave
  by_cases hl : d.live = true
  · rw [if_neg (by rw [hl]; decide)]
    cases hu : d.usermap.lookup uid with
    | none => exact Or.inl ⟨Or.inr rfl, _, rfl⟩
    | some u =>
        dsimp only
        cases haud : (d.objs u).audience with
        | none =>
            have hsync : Kept d { d with sync := d.sync.add (d.objs u).seat false } :=
              ⟨rfl, rfl, rfl, rfl, fun _ => rfl, fun _ h => h⟩
            exact Or.inr (Or.inr ⟨u, _, hl, rfl, hsync, rfl, rfl⟩)
        | some a =>
            cases a with
            | false => exact Or.inr (Or.inl ⟨u, rfl, haud, rfl⟩)
            | true => exact Or.inr (Or.inr ⟨u, d, hl, rfl, .refl d, rfl, rfl⟩)
  · have hl : d.live = false := by simpa using hl
    rw [if_pos (by rw [hl]; decide)]
    exact Or.inl ⟨Or.inl hl, _, rfl⟩

/-- The user `v` leaves as part of `cli:dismiss_apply`. -/
theorem good_leave (h : Calm w me id) (hk : Kept (w.desks id) d) {v : Ref}
    (hv : d.usermap.lookup (d.objs v).id = some v) (ha : (d.objs v).audience ≠ some false)
    (hs : InOrder (leave d (d.objs v).id (.dismissApply v))) :
    Good w me id (leave d (d.objs v).id (.dismissApply v)) := by
  have hlive : d.live = true := hk.live.trans h.rest.live
  have hsource := (h.rest.manned.kept hk).source _ v hv
  rcases leave_cases d (d.objs v).id (.dismissApply v) with
    ⟨hno, -⟩ | ⟨u, hu, haud, -⟩ | ⟨u, e, -, hu, he, hobjs, hout⟩
  · rw [hlive, hv] at hno
    simp at hno
  · rw [Option.some_inj.1 (hv.symm.trans hu)] at ha
    exact absurd haud ha
  · obtain rfl := Option.some_inj.1 (hv.symm.trans hu)
    rw [hout] at hs ⊢
    have hke := hk.trans he
    refine ⟨h.rest.drop hke v, fun hf => ?_, h.stored, fun hne => h.home.drop hke hne, ?_, ?_⟩
    · rw [setDesk_self]
      exact hs fun pc hpc => by rw [List.mem_singleton.1 hpc]; rfl
    · rw [setDesk_self]
      exact id_drop e v v
    · rw [setDesk_self]
      have hkeep := kept_setUser e v (f := fun x => { x with audience := none }) (fun _ => rfl)
        fun _ h => h
      exact hkeep.source v (by rw [hobjs]; exact hsource)

theorem good_afterStandup (h : Calm w me id) (hk : Kept (w.desks id) d)
    (hfits : AfterStandup.fits d k)
    (hs : InOrder (afterStandup d r k)) : Good w me id (afterStandup d r k) := by
  cases k with
  | ret => exact good_ret h hk (hs fun pc hpc => by cases hpc) r
  | dismissApply v => exact good_leave h hk hfits.1 hfits.2 hs

/-- A user gives his seat back. -/
theorem good_actstandup (h : Calm w me id) (hk : Kept (w.desks id) d) {u : Ref}
    (hseat : Seated d [])
    (hfits : ∀ v, k = .dismissApply v → u = v ∧ d.usermap.lookup (d.objs v).id = some v)
    (hs : InOrder (actstandup d (d.objs u).seat k)) :
    Good w me id (actstandup d (d.objs u).seat k) := by
  unfold actstandup at hs ⊢
  cases hlook : d.users.lookup (d.objs u).seat with
  | none =>
      rw [hlook] at hs
      refine good_afterStandup h hk ?_ hs
      cases k with
      | ret => trivial
      | dismissApply v =>
          obtain ⟨rfl, hv⟩ := hfits v rfl
          refine ⟨hv, ?_⟩
          rcases hseat.user hv with ⟨hsits, -⟩ | ⟨-, ha⟩
          · rw [hlook] at hsits
            cases hsits
          · rw [ha]
            simp
  | some v' =>
      rw [hlook] at hs
      dsimp only at hs ⊢
      by_cases hneg : (d.objs u).seat = -1
      · rw [if_pos hneg] at hs ⊢
        refine good_afterStandup h hk ?_ hs
        cases k with
        | ret => trivial
        | dismissApply v =>
            obtain ⟨rfl, hv⟩ := hfits v rfl
            refine ⟨hv, ?_⟩
            rcases hseat.user hv with ⟨-, hpos⟩ | ⟨-, ha⟩
            · exact absurd hneg hpos
            · rw [ha]
              simp
      · rw [if_neg hneg] at hs ⊢
        have hku := kept_unseat d (d.objs u).seat v'
        refine at_wait h (hk.trans hku)
          (fun _ => hs fun pc hpc => by rw [List.mem_singleton.1 hpc]; rfl)
          fun hs hh hd => ⟨hs, hh, ?_⟩
        rw [hd]
        cases k with
        | ret => trivial
        | dismissApply v =>
            obtain ⟨rfl, hv⟩ := hfits v rfl
            have hvu : v' = u := by
              rcases hseat.user hv with ⟨hsits, -⟩ | ⟨hout, -⟩
              · rw [hlook] at hsits
                exact Option.some_inj.1 hsits
              · exact absurd hout hneg
            subst hvu
            refine ⟨?_, ?_⟩
            · have hkeep := hku.id v'
              change (unseat d (d.objs v').seat v').usermap.lookup _ = some v'
              rw [Out.d_wait, hkeep, hku.usermap]
              exact hv
            · simp [unseat, Desk.setUser]

/-- What follows `back_roomcard`. -/
theorem good_afterBack {k : AfterBack} (h : Calm w me id) (hk : Kept (w.desks id) d)
    (hseat : ∀ u k', k = .standup u k' → Seated d []) (hfits : AfterBack.fits d k)
    (hs : InOrder (afterBack d k)) :
    Good w me id (afterBack d k) := by
  cases k with
  | standup u k =>
      refine good_actstandup h hk (hseat u k rfl) ?_ hs
      rintro v rfl
      exact hfits
  | free r => exact good_freeLoop h (hk.trans (kept_mark d .freeDesk)) r

/-- A walk of `back_roomcard`. -/
theorem good_walkOn {p : Walk} (h : Calm w me id) (hk : Kept (w.desks id) d)
    (hfits : AfterBack.fits d p.k)
    (hs : InOrder (walkOn d p)) : Good w me id (walkOn d p) := by
  obtain ⟨p', pc, hwalk, hplan, -, -, hpc⟩ := walk_cases d p ((d.tabs p.tab).drop p.i)
  rw [walkOn, hwalk] at hs ⊢
  refine at_wait h hk (fun _ => hs fun pc' hpc' => ?_) fun hst hh hd => ?_
  · rw [List.mem_singleton.1 hpc']
    rcases hpc with ⟨c, rfl⟩ | rfl <;> rfl
  · rcases hpc with ⟨c, rfl⟩ | rfl
    all_goals
      refine ⟨hst, hh, ?_⟩
      rw [hd, hplan]
      exact hfits

theorem good_backRoomcard {userid : Option ℕ} {k : AfterBack} (h : Calm w me id)
    (hk : Kept (w.desks id) d) (hseat : Seated d []) (hfits : AfterBack.fits d k)
    (hs : InOrder (backRoomcard d userid k)) : Good w me id (backRoomcard d userid k) := by
  unfold backRoomcard at hs ⊢
  split
  · rename_i hcosts
    rw [if_pos hcosts] at hs
    exact good_afterBack h hk (fun _ _ _ => hseat) hfits hs
  · rename_i hcosts
    rw [if_neg hcosts] at hs
    exact good_walkOn h hk hfits hs

/-- `desk.standup`, as a request or as a part of `cli:dismiss_apply`. -/
theorem good_standup {uid : ℕ} (h : Calm w me id) (hk : Kept (w.desks id) d) (hseat : Seated d [])
    (hfits : ∀ v, k = .dismissApply v → (d.objs v).id = uid ∧ d.usermap.lookup uid = some v)
    (hstart : d.started = true → k = .ret) (hs : InOrder (standup d uid k)) :
    Good w me id (standup d uid k) := by
  unfold standup at hs ⊢
  have hlive : d.live = true := hk.live.trans h.rest.live
  simp only [hlive, Bool.not_true, Bool.false_eq_true, if_false] at hs ⊢
  by_cases hst : d.started = true
  · rw [if_pos hst]
    rw [hstart hst]
    exact good_ret h hk hseat _
  · rw [if_neg hst] at hs ⊢
    cases hu : d.usermap.lookup uid with
    | none => exact good_ret h hk hseat _
    | some u =>
        rw [hu] at hs
        have hplan : ∀ v, k = .dismissApply v → u = v ∧ d.usermap.lookup (d.objs v).id =
          some v := by
          intro v hv
          obtain ⟨hid, hlook⟩ := hfits v hv
          exact ⟨Option.some_inj.1 (hu.symm.trans hlook), by rw [hid, hlook]⟩
        dsimp only at hs ⊢
        split
        · rename_i hpay
          rw [if_pos hpay] at hs
          refine good_backRoomcard h hk hseat ?_ hs
          cases k with
          | ret => trivial
          | dismissApply v => exact hplan v rfl
        · rename_i hpay
          rw [if_neg hpay] at hs
          exact good_actstandup h hk hseat hplan hs

theorem good_forceDismiss (h : Calm w me id) (hk : Kept (w.desks id) d) (hseat : Seated d [])
    (hs : InOrder (forceDismiss d)) : Good w me id (forceDismiss d) := by
  have hlive : d.live = true := hk.live.trans h.rest.live
  have hkeep : Kept d { d with dimiss := true } := ⟨rfl, rfl, rfl, rfl, fun _ => rfl, fun _ h => h⟩
  have hdimiss := hk.trans hkeep
  have hseat' : Seated { d with dimiss := true } [] := hseat.same (sameSeats_of_base rfl)
  unfold forceDismiss at hs ⊢
  rw [if_neg (by rw [hlive]; decide)] at hs ⊢
  by_cases hstart : d.isstart = true
  · rw [if_pos hstart]
    exact good_ret h hk hseat _
  · rw [if_neg hstart] at hs ⊢
    dsimp only at hs ⊢
    split
    · exact good_ret h hdimiss hseat' _
    · rename_i hpush
      rw [if_neg hpush] at hs
      exact good_backRoomcard h hdimiss hseat' trivial hs

/-- `cli:dismiss_apply`. -/
theorem good_dismissApply {u : Ref} (h : Calm w me id) (hk : Kept (w.desks id) d)
    (hseat : Seated d [])
    (hu : d.usermap.lookup (d.objs u).id = some u) (hs : InOrder (dismissApply d u)) :
    Good w me id (dismissApply d u) := by
  unfold dismissApply at hs ⊢
  cases hdismiss : d.dismiss with
  | yes => exact good_ret h hk hseat _
  | vote v => exact good_ret h hk hseat _
  | no =>
      rw [hdismiss] at hs
      dsimp only at hs ⊢
      by_cases hst : d.started = true
      · rw [if_pos hst]
        have hvote : Kept d { d with dismiss := .vote { applyer := (d.objs u).seat } } :=
          ⟨rfl, rfl, rfl, rfl, fun _ => rfl, fun _ h => h⟩
        exact good_ret h (hk.trans hvote) (hseat.same (sameSeats_of_base rfl)) (.wait 30)
      · rw [if_neg hst] at hs ⊢
        split
        · rename_i hm
          rw [if_pos hm] at hs
          have hyes : Kept d { d with dismiss := .yes } :=
            ⟨rfl, rfl, rfl, rfl, fun _ => rfl, fun _ h => h⟩
          exact good_backRoomcard h (hk.trans hyes) (hseat.same (sameSeats_of_base rfl)) trivial hs
        · rename_i hm
          rw [if_neg hm] at hs
          refine good_standup h hk hseat ?_ (fun hst' => absurd hst' hst) hs
          rintro v hv
          cases hv
          exact ⟨rfl, hu⟩

/-- A handler that ends at once. -/
theorem good_of_ret {o : Out} (h : Calm w me id) (hk : Kept (w.desks id) o.d) (hs : InOrder o)
    (hr : ∃ d r, o = .ret d r) : Good w me id o := by
  obtain ⟨d, r, rfl⟩ := hr
  exact good_ret h hk (hs fun pc hpc => by cases hpc) r

theorem good_sitdown {uid : ℕ} {withseat : Option ℤ} (h : Calm w me id) (hk : Kept (w.desks id) d)
    (hs : InOrder (sitdown d uid withseat)) : Good w me id (sitdown d uid withseat) := by
  rcases sitdown_cases d uid withseat with ⟨r, hout⟩ | ⟨u, seat, rest, -, -, -, -, hout⟩
  · rw [hout] at hs ⊢
    exact good_of_ret h hk hs ⟨d, r, rfl⟩
  · rw [hout] at hs ⊢
    refine at_wait h (hk.trans (kept_assignSeat d u seat rest))
      (fun _ => hs fun pc hpc => by rw [List.mem_singleton.1 hpc]; rfl) fun hst hh _ => ⟨hst, hh⟩

theorem good_afk {uid : ℕ} (h : Calm w me id) (hk : Kept (w.desks id) d)
    (hs : InOrder (afk d uid)) :
    Good w me id (afk d uid) := by
  have hkept : Kept d (afk d uid).d := by
    unfold afk
    split
    · exact .refl d
    · split
      · exact .refl d
      · rename_i u hu
        have hset := kept_setUser d u (f := fun x => { x with afk := true }) (fun _ => rfl)
          fun _ h => h
        exact hset.trans (kept_changeandroidid _ uid)
  refine good_of_ret h (hk.trans hkept) hs ?_
  unfold afk
  split
  · exact ⟨_, _, rfl⟩
  · split <;> exact ⟨_, _, rfl⟩

theorem good_sceneinfo {uid : ℕ} (h : Calm w me id) (hk : Kept (w.desks id) d)
    (hs : InOrder (sceneinfo d uid)) : Good w me id (sceneinfo d uid) := by
  have hkept : Kept d (sceneinfo d uid).d := by
    unfold sceneinfo
    split
    · exact .refl d
    · split
      · exact .refl d
      · split
        · exact .refl d
        · rename_i u hu
          have hset := kept_setUser d u (f := fun x => { x with source := true, afk := false })
            (fun _ => rfl) fun _ _ => rfl
          exact ⟨hset.creater, hset.live, hset.usermap, hset.nobj, hset.id, hset.source⟩
  refine good_of_ret h (hk.trans hkept) hs ?_
  unfold sceneinfo
  repeat' split
  all_goals exact ⟨_, _, rfl⟩

end Segments

end Halieutics.Mydesk
