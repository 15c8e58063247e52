/-
**The seats registered at the barrier of a desk.**

The waits of a desk for the banker and for the game are released when every registered seat has
arrived.  `init_user` registers a seat; the only code that takes one out is a branch of `desk.leave`
for a user who is neither seated nor an audience, and nobody is that while he is at the desk.  So a
seat that is given back stays registered.

Main definitions:

* `Halieutics.Registered` — **the seats registered at the barrier are the seats that are taken**;
* `Halieutics.SeatOps` — the operations: `join`, `sitdown`, `standup`, `leave` and `dismiss_apply`
  requests that do not overlap;
* `Halieutics.KeepsSeat` — the condition: nobody who has a seat stands up, by himself or by applying
  for the dismissal of a desk that is not his.

Main results:

* `Halieutics.booked_of_keepsSeat` — the registered seats are those that are taken or about to be,
  along every run that meets the condition;
* `Halieutics.registered_of_keepsSeat` — **the barrier knows exactly the seated players whenever no
  request is in flight**;
* `Halieutics.standup_stays_registered` — a seat that is given back stays registered.
-/

import Halieutics.DeskAlone
import Halieutics.SyncBarrier

set_option relaxedAutoImplicit false
set_option autoImplicit false

namespace Halieutics

open LuaTable Coroutine

/-! ### The operations -/

/-- The number of registered seats that the barrier keeps; it is zero before the first is
entered. -/
def Sync.count (s : Sync) : ℤ := (s.users.getD {}).count

/-- **The seats registered at the barrier are the seats that are taken.** -/
structure Registered (d : Desk) : Prop where
  seats : ∀ seat, seat ∈ d.sync.regs ↔ seat ∈ d.users
  count : d.sync.count = d.users.keys.length

/-- The requests before a game. -/
def Req.seating : Req → Bool
  | .join _ _ | .sitdown _ _ | .standup _ | .leave _ | .client _ .dismissApply => true
  | _ => false

/-- **The operations**: `join`, `sitdown`, `standup`, `leave` and `dismiss_apply` requests that do
not overlap. -/
def SeatOps (s : Sys) (e : Ev) : Prop :=
  Complete s e ∧
    match e with
    | .call r _ => r.seating = true
    | .resume _ _ => True

/-- The user has no seat. -/
def Desk.unseated (d : Desk) (u : Ref) : Prop := d.users.lookup (d.objs u).seat = none

/-- **The condition**: nobody who has a seat stands up, by himself or, unless he is the master, by
applying for the dismissal. -/
def KeepsSeat (s : Sys) : Ev → Prop
  | .call (.standup uid) _ => ∀ u, s.shared.usermap.lookup uid = some u → s.shared.unseated u
  | .call (.client uid .dismissApply) _ =>
      ∀ u, s.shared.usermap.lookup uid = some u → (s.shared.objs u).master = false →
        s.shared.unseated u
  | _ => True

/-- The operations, and the condition. -/
def SeatOpsKept (s : Sys) (e : Ev) : Prop := SeatOps s e ∧ KeepsSeat s e

instance (s : Sys) (e : Ev) : Decidable (SeatOps s e) := by
  unfold SeatOps
  cases e <;> infer_instance

instance (d : Desk) (u : Ref) : Decidable (d.unseated u) :=
  inferInstanceAs (Decidable (d.users.lookup (d.objs u).seat = none))

instance (s : Sys) (e : Ev) : Decidable (KeepsSeat s e) := by
  unfold KeepsSeat
  split
  · rename_i uid _
    exact decidable_of_iff
      ((s.shared.usermap.lookup uid).all fun u => decide (s.shared.unseated u))
      (by cases s.shared.usermap.lookup uid <;> simp)
  · rename_i uid _
    exact decidable_of_iff
      ((s.shared.usermap.lookup uid).all fun u =>
        decide ((s.shared.objs u).master = false → s.shared.unseated u))
      (by cases s.shared.usermap.lookup uid <;> simp [or_iff_not_imp_left])
  · infer_instance

instance (s : Sys) (e : Ev) : Decidable (SeatOpsKept s e) :=
  inferInstanceAs (Decidable (_ ∧ _))

/-! ### What is registered -/

/-- Nobody stands up when this walk of `back_roomcard` ends. -/
def Walk.keepsSeat (d : Desk) (w : Walk) : Prop :=
  (∃ u k, w.k = .standup u k ∧ d.unseated u) ∨ ∃ r, w.k = .free r

/-- The points of the operations. -/
def Pc.attending (d : Desk) : Pc → Prop
  | .monitor | .ready | .joinAdd _ | .joinDb _ | .sitAdd _ _ | .sitUse _ | .sitRecord _
  | .sitCost _ _ | .kickRemove _ _ | .kickLeave _ _ | .dismissAgent _ | .freeAgent _ _
  | .freeDismiss _ | .freeGamedb _ | .freeLobby _ => True
  | pc => ∃ w st, pc.walk? = some (w, st) ∧ w.keepsSeat d

/-- **The registered seats are those that are taken or about to be**; and whoever is at the desk is
seated or an audience. -/
structure Booked (d : Desk) (l : List Pc) : Prop where
  seats : ∀ seat, seat ∈ d.sync.regs ↔ seat ∈ d.users ∨ seat ∈ (pending l).map Prod.snd
  count : d.sync.count = d.users.keys.length + (pending l).length
  heard : ∀ uid u, d.usermap.lookup uid = some u → (d.objs u).audience ≠ none

/-- The desks have the same seats, users and barrier. -/
structure SameBarrier (d d' : Desk) : Prop where
  users : d'.users = d.users
  usermap : d'.usermap = d.usermap
  sync : d'.sync = d.sync
  isstart : d'.isstart = d.isstart
  audience : ∀ u, (d'.objs u).audience = (d.objs u).audience

/-- **What a piece of work of an operation does**: it leaves one point behind at most, and keeps the
barrier in step with the seats. -/
structure Attends (d : Desk) (ps : List Pc) (o : Out) : Prop where
  pcs : o.pcs = [] ∨ ∃ pc, o.pcs = [pc] ∧ pc.attending o.d ∧ pc.newDesk = false
  isstart : o.d.isstart = d.isstart
  waiting : o.d.sync.waiting = d.sync.waiting
  booked : Booked d ps → Booked o.d o.pcs

variable {d d' : Desk} {l l' ps : List Pc}

theorem SameBarrier.refl (d : Desk) : SameBarrier d d := ⟨rfl, rfl, rfl, rfl, fun _ => rfl⟩

theorem SameBarrier.trans {d'' : Desk} (h : SameBarrier d d') (h' : SameBarrier d' d'') :
    SameBarrier d d'' where
  users := h'.users.trans h.users
  usermap := h'.usermap.trans h.usermap
  sync := h'.sync.trans h.sync
  isstart := h'.isstart.trans h.isstart
  audience := fun u => (h'.audience u).trans (h.audience u)

theorem sameBarrier_executed (d : Desk) (inp : Inp) (pc : Pc) :
    SameBarrier d (executed d inp pc) := by
  unfold executed
  split
  · exact .refl d
  · exact ⟨rfl, rfl, rfl, rfl, fun _ => rfl⟩

theorem sameBarrier_setUser (d : Desk) (u : Ref) {f : User → User}
    (hf : ∀ x, (f x).audience = x.audience) : SameBarrier d (d.setUser u f) := by
  refine ⟨rfl, rfl, rfl, rfl, fun v => ?_⟩
  by_cases hv : v = u
  · rw [hv, objs_setUser_self, hf]
  · rw [objs_setUser_ne d f hv]

theorem Booked.same (hs : SameBarrier d d') (hp : pending l' = pending l) (h : Booked d l) :
    Booked d' l' where
  seats := by
    rw [hs.sync, hs.users, hp]
    exact h.seats
  count := by
    rw [hs.sync, hs.users, hp]
    exact h.count
  heard := by
    intro uid u hu
    rw [hs.usermap] at hu
    rw [hs.audience]
    exact h.heard uid u hu

theorem Booked.perm (hp : l'.Perm l) (h : Booked d l) : Booked d l' := by
  have hpend : (pending l').Perm (pending l) := hp.filterMap _
  refine ⟨fun seat => ?_, ?_, h.heard⟩
  · rw [h.seats seat, (hpend.map Prod.snd).mem_iff]
  · rw [h.count, hpend.length_eq]

/-- `sync:add` enters a seat that is not registered. -/
theorem add_new {s : Sync} {seat : ℤ} (hnew : seat ∉ s.regs) :
    (s.add seat true).regs = insert seat s.regs ∧ (s.add seat true).count = s.count + 1 := by
  rw [Sync.add_new hnew]
  exact ⟨SyncUsers.regs_insert_true _ _ _ _, rfl⟩

/-! ### One piece of work -/

section Attends

/-- Work that ends without touching the seats. -/
theorem attends_ret (hs : SameBarrier d d') (hp : pending ps = []) (r : Ret) :
    Attends d ps (.ret d' r) where
  pcs := Or.inl rfl
  isstart := hs.isstart
  waiting := congrArg Sync.waiting hs.sync
  booked := fun h => h.same hs hp.symm

/-- Work that goes on without touching the seats. -/
theorem attends_wait {pc : Pc} (hs : SameBarrier d d') (hp : pending ps = [])
    (hpc : pc.attending d') (hn : pc.newDesk = false) (hsit : pc.sitting? = none) :
    Attends d ps (.wait d' pc) where
  pcs := Or.inr ⟨pc, rfl, hpc, hn⟩
  isstart := hs.isstart
  waiting := congrArg Sync.waiting hs.sync
  booked := fun h => h.same hs ((List.filterMap_cons_none hsit).trans hp.symm)

/-- A user is dropped. -/
theorem attends_kick (hs : SameBarrier d d') (hp : pending ps = [])
    (hids : ∀ uid v, d'.usermap.lookup uid = some v → (d'.objs v).id = uid) (u : Ref)
    (k : AfterKick) : Attends d ps (kickUser d' u k) where
  pcs := Or.inr ⟨_, rfl, trivial, rfl⟩
  isstart := hs.isstart
  waiting := congrArg Sync.waiting hs.sync
  booked := by
    intro h
    have hb : Booked d' [] := h.same hs hp.symm
    obtain ⟨hseats, hcount, hheard⟩ := hb
    refine ⟨hseats, hcount, fun uid v hdrop => ?_⟩
    have hv : (d'.usermap.erase (d'.objs u).id).lookup uid = some v := hdrop
    rw [lookup_erase_eq] at hv
    split at hv
    · cases hv
    · rename_i hne
      have hvu : v ≠ u := by
        rintro rfl
        exact hne (hids uid v hv).symm
      have hobj : (drop d' u).objs v = d'.objs v := objs_setUser_ne _ _ hvu
      change ((drop d' u).objs v).audience ≠ none
      rw [hobj]
      exact hheard uid v hv

theorem attends_freeLoop (hs : SameBarrier d d') (hp : pending ps = [])
    (hids : ∀ uid v, d'.usermap.lookup uid = some v → (d'.objs v).id = uid) (r : Ret) :
    Attends d ps (freeLoop d' r) := by
  unfold freeLoop
  split
  · exact attends_wait hs hp trivial rfl rfl
  · split
    · exact attends_wait hs hp trivial rfl rfl
    · exact attends_kick hs hp hids _ _

theorem attends_freeDesk (hs : SameBarrier d d') (hp : pending ps = [])
    (hids : ∀ uid v, d'.usermap.lookup uid = some v → (d'.objs v).id = uid) (r : Ret) :
    Attends d ps (freeDesk d' r) := by
  have hs' : SameBarrier d (d'.mark .freeDesk) := hs.trans ⟨rfl, rfl, rfl, rfl, fun _ => rfl⟩
  exact attends_freeLoop hs' hp hids r

theorem attends_afterLeave (hs : SameBarrier d d') (hp : pending ps = []) (r : Ret)
    (k : AfterLeave) : Attends d ps (afterLeave d' r k) := by
  cases k with
  | ret => exact attends_ret hs hp r
  | dismissApply u =>
      dsimp only [afterLeave]
      split
      · exact attends_wait hs hp trivial rfl rfl
      · exact attends_ret hs hp _

theorem attends_leave (hs : SameBarrier d d') (hp : pending ps = [])
    (hids : ∀ uid v, d'.usermap.lookup uid = some v → (d'.objs v).id = uid) (uid : ℕ)
    (k : AfterLeave) : Attends d ps (leave d' uid k) := by
  unfold leave
  split
  · exact attends_ret hs hp _
  · cases hu : d'.usermap.lookup uid with
    | none => exact attends_ret hs hp _
    | some u =>
        dsimp only
        split
        · exact attends_afterLeave hs hp _ k
        · exact attends_kick hs hp hids u _
        · -- nobody at the desk is neither seated nor an audience
          rename_i hnone
          refine ⟨Or.inr ⟨_, rfl, trivial, rfl⟩, hs.isstart, ?_, fun h => ?_⟩
          · exact (Sync.add_waiting _ _ _).trans (congrArg Sync.waiting hs.sync)
          · have hb : Booked d' [] := h.same hs hp.symm
            exact absurd hnone (hb.heard uid u hu)

theorem attends_afterStandup (hs : SameBarrier d d') (hp : pending ps = [])
    (hids : ∀ uid v, d'.usermap.lookup uid = some v → (d'.objs v).id = uid) (r : Ret)
    (k : AfterStandup) : Attends d ps (afterStandup d' r k) := by
  cases k with
  | ret => exact attends_ret hs hp r
  | dismissApply u => exact attends_leave hs hp hids _ _

/-- Somebody without a seat stands up. -/
theorem attends_actstandup (hs : SameBarrier d d') (hp : pending ps = [])
    (hids : ∀ uid v, d'.usermap.lookup uid = some v → (d'.objs v).id = uid) {u : Ref}
    (hu : d'.unseated u) (k : AfterStandup) : Attends d ps (actstandup d' (d'.objs u).seat k) := by
  unfold actstandup
  rw [hu]
  exact attends_afterStandup hs hp hids _ k

theorem attends_walkOn (hs : SameBarrier d d') (hp : pending ps = []) {w : Walk}
    (hw : w.keepsSeat d') : Attends d ps (walkOn d' w) := by
  obtain ⟨w', pc, h, hk, -, -, hpc⟩ := walk_cases d' w ((d'.tabs w.tab).drop w.i)
  rw [walkOn, h]
  have hw' : w'.keepsSeat d' := by
    unfold Walk.keepsSeat
    rw [hk]
    exact hw
  rcases hpc with ⟨c, rfl⟩ | rfl
  · exact attends_wait hs hp ⟨w', _, rfl, hw'⟩ rfl rfl
  · exact attends_wait hs hp ⟨w', _, rfl, hw'⟩ rfl rfl

theorem attends_standup (hp : pending ps = [])
    (hids : ∀ uid v, d.usermap.lookup uid = some v → (d.objs v).id = uid) (uid : ℕ)
    (hu : ∀ u, d.usermap.lookup uid = some u → d.unseated u) (k : AfterStandup) :
    Attends d ps (standup d uid k) := by
  unfold standup
  split
  · exact attends_ret (.refl d) hp _
  · split
    · exact attends_afterStandup (.refl d) hp hids _ k
    · split
      · exact attends_ret (.refl d) hp _
      · rename_i u hlook
        split
        · rcases backRoomcard_cases d (some (d.objs u).id) (.standup u k) with h | ⟨-, h⟩
          · rw [h]
            exact attends_actstandup (.refl d) hp hids (hu u hlook) k
          · rw [h]
            exact attends_walkOn (.refl d) hp (Or.inl ⟨u, k, rfl, hu u hlook⟩)
        · exact attends_actstandup (.refl d) hp hids (hu u hlook) k

/-- **`cli:dismiss_apply` before the start.** -/
theorem attends_dismissApply (hst : d.isstart = false) (hp : pending ps = [])
    (hids : ∀ uid v, d.usermap.lookup uid = some v → (d.objs v).id = uid) {u : Ref}
    (hlook : d.usermap.lookup (d.objs u).id = some u)
    (hu : (d.objs u).master = false → d.unseated u) : Attends d ps (dismissApply d u) := by
  have hstarted : d.started = false := by simp [Desk.started, hst]
  unfold dismissApply
  split
  · rw [if_neg (by simp [hstarted])]
    cases hm : (d.objs u).master with
    | true =>
        have hs : SameBarrier d { d with dismiss := .yes } := ⟨rfl, rfl, rfl, rfl, fun _ => rfl⟩
        rw [if_pos rfl]
        rcases backRoomcard_cases { d with dismiss := .yes } none (.free .nil) with h | ⟨-, h⟩
        · rw [h]
          exact attends_freeDesk hs hp hids _
        · rw [h]
          exact attends_walkOn hs hp (Or.inr ⟨_, rfl⟩)
    | false =>
        rw [if_neg Bool.false_ne_true]
        refine attends_standup hp hids _ (fun v hv => ?_) _
        obtain rfl := Option.some_inj.1 (hlook.symm.trans hv)
        exact hu hm
  · exact attends_ret (.refl d) hp _

/-- A user joins. -/
theorem attends_join (hb : SeatBase d []) {user : User} (ha : user.audience = some true) :
    Attends d [] (.wait (joinin d user) (.joinAdd d.nobj)) where
  pcs := Or.inr ⟨_, rfl, trivial, rfl⟩
  isstart := rfl
  waiting := rfl
  booked := by
    intro h
    refine ⟨h.seats, h.count, fun uid v hv => ?_⟩
    have hv : (d.usermap.insert user.id d.nobj).lookup uid = some v := hv
    change (Function.update d.objs d.nobj user v).audience ≠ none
    rw [lookup_insert_eq] at hv
    split at hv
    · obtain rfl := Option.some_inj.1 hv
      rw [Function.update_self, ha]
      exact nofun
    · rw [Function.update_of_ne (Nat.ne_of_lt (hb.ids uid v hv).2)]
      exact h.heard uid v hv

/-- A seat is assigned and registered. -/
theorem attends_assign (hb : SeatBase d []) {u : Ref} {seat : ℤ} {rest : List ℤ}
    (ht : Takes d.freeseats seat rest) :
    Attends d [] (.wait (assignSeat d u seat rest) (.sitAdd u seat)) where
  pcs := Or.inr ⟨_, rfl, trivial, rfl⟩
  isstart := rfl
  waiting := Sync.add_waiting _ _ _
  booked := by
    intro h
    -- the seat is free, so it is not registered yet
    have hfree : seat ∉ d.users := by
      intro hk
      have hnodup := hb.nodup
      exact (List.nodup_append.1 hnodup).2.2 seat ht.1 seat
        (List.mem_append_left _ (AList.mem_keys.1 hk)) rfl
    have hnew : seat ∉ d.sync.regs := by
      rw [h.seats]
      simpa [pending] using hfree
    obtain ⟨hregs, hcount⟩ := add_new hnew
    refine ⟨fun seat' => ?_, ?_, fun uid v hv => ?_⟩
    · change seat' ∈ (d.sync.add seat true).regs ↔ seat' ∈ d.users ∨ seat' ∈ [seat]
      rw [hregs, Finset.mem_insert, h.seats, List.mem_singleton]
      simp only [pending, List.filterMap_nil, List.map_nil, List.not_mem_nil, or_false]
      exact or_comm
    · change (d.sync.add seat true).count = d.users.keys.length + 1
      rw [hcount, h.count]
      simp [pending]
    · have hv : d.usermap.lookup uid = some v := hv
      by_cases hvu : v = u
      · have hself : (assignSeat d u seat rest).objs u
            = { d.objs u with game := some 0, seat := seat, audience := some false } :=
          objs_setUser_self _ _ _
        change ((assignSeat d u seat rest).objs v).audience ≠ none
        rw [hvu, hself]
        exact Option.some_ne_none false
      · have hne : (assignSeat d u seat rest).objs v = d.objs v := objs_setUser_ne _ _ hvu
        change ((assignSeat d u seat rest).objs v).audience ≠ none
        rw [hne]
        exact h.heard uid v hv

/-- The seat that was pending is taken. -/
theorem Booked.seated {u : Ref} {seat : ℤ} (hb : SeatBase d [.sitAdd u seat])
    (h : Booked d [.sitAdd u seat]) : Booked (seatUser d u seat) [] := by
  have hkey : seat ∉ d.users.keys := by
    intro hk
    have hnodup := hb.nodup
    exact (List.nodup_append.1 (List.nodup_append.1 hnodup).2.1).2.2 seat hk seat
      List.mem_cons_self rfl
  refine ⟨fun seat' => ?_, ?_, h.heard⟩
  · change seat' ∈ d.sync.regs ↔ seat' ∈ d.users.insert seat u ∨ _
    rw [h.seats, AList.mem_insert]
    change seat' ∈ d.users ∨ seat' ∈ [seat] ↔ (seat' = seat ∨ seat' ∈ d.users) ∨ seat' ∈ []
    rw [List.mem_singleton]
    simp only [List.not_mem_nil, or_false]
    exact or_comm
  · change d.sync.count = ((d.users.insert seat u).keys.length : ℤ) + 0
    rw [h.count, AList.keys_insert, List.erase_of_not_mem hkey, List.length_cons]
    simp [pending, Pc.sitting?]

/-- **The first segment of a request.** -/
theorem attends_req (hb : SeatBase d []) {r : Req} {inp : Inp} (hr : r.seating = true)
    (hc : ∀ uid c, r ≠ .client uid c)
    (hC : ∀ uid u, r = .standup uid → d.usermap.lookup uid = some u → d.unseated u) :
    Attends d [] (direct d inp r) := by
  have hids : ∀ uid v, d.usermap.lookup uid = some v → (d.objs v).id = uid := fun uid v hv =>
    (hb.ids uid v hv).1
  cases r with
  | join uid android =>
      rcases join_cases d uid android inp with ⟨r, h⟩ | ⟨user, -, -, ha, -, h⟩
      · rw [direct, h]
        exact attends_ret (.refl d) rfl r
      · rw [direct, h]
        exact attends_join hb ha
  | sitdown uid withseat =>
      rcases sitdown_cases d uid withseat with ⟨r, h⟩ | ⟨u, seat, rest, -, -, -, ht, h⟩
      · rw [direct, h]
        exact attends_ret (.refl d) rfl r
      · rw [direct, h]
        exact attends_assign hb ht
  | standup uid => exact attends_standup rfl hids uid (fun u hu => hC uid u rfl hu) .ret
  | leave uid => exact attends_leave (.refl d) rfl hids uid .ret
  | client uid c => exact absurd rfl (hc uid c)
  | _ => simp [Req.seating] at hr

/-- **The segment of an operation.** -/
theorem attends_seg {pc : Pc} (hb : SeatBase d [pc]) (hpc : pc.attending d) (inp : Inp)
    (hs : pc.background = false) : Attends d [pc] (segment (executed d inp pc) inp pc) := by
  have hx := sameBarrier_executed d inp pc
  have hids : ∀ uid v, (executed d inp pc).usermap.lookup uid = some v →
      ((executed d inp pc).objs v).id = uid := by
    intro uid v hv
    rw [hx.usermap] at hv
    rw [objs_executed]
    exact (hb.ids uid v hv).1
  have keeps : ∀ {w : Walk}, w.keepsSeat d → w.keepsSeat (executed d inp pc) := by
    rintro w (⟨u, k, hk, hu⟩ | hk)
    · refine Or.inl ⟨u, k, hk, ?_⟩
      unfold Desk.unseated
      rw [hx.users, objs_executed]
      exact hu
    · exact Or.inr hk
  have ends : ∀ (d' : Desk) (u : Ref), SameBarrier d d' → pending [pc] = [] →
      Attends d [pc] (sitEnd d' u) := by
    intro d' u hs hp
    unfold sitEnd
    dsimp only
    split
    · exact attends_ret (hs.trans (sameBarrier_setUser (f := fun x => { x with ready := true }) d' u
        fun _ => rfl)) hp _
    · exact attends_ret hs hp _
  cases pc with
  | joinAdd u =>
      exact attends_wait (hx.trans (sameBarrier_setUser _ u fun _ => rfl)) rfl trivial rfl rfl
  | joinDb u => exact attends_ret hx rfl _
  | sitAdd u seat =>
      have hsit : Booked d [.sitAdd u seat] →
          Booked (seatUser (executed d inp (.sitAdd u seat)) u seat) [] := by
        intro h
        have hb' : SeatBase (executed d inp (.sitAdd u seat)) [.sitAdd u seat] :=
          hb.called inp (.seg (.sitAdd u seat))
        exact Booked.seated hb' (h.same hx rfl)
      dsimp only [segment, sitSeated]
      split
      · refine ⟨Or.inr ⟨_, rfl, trivial, rfl⟩, hx.isstart, congrArg Sync.waiting hx.sync,
          fun h => ?_⟩
        have hb' := hsit h
        exact ⟨hb'.seats, hb'.count, hb'.heard⟩
      · unfold sitEnd
        dsimp only
        split
        · refine ⟨Or.inl rfl, hx.isstart, congrArg Sync.waiting hx.sync, fun h => ?_⟩
          exact (hsit h).same (sameBarrier_setUser (f := fun x => { x with ready := true }) _ u
            fun _ => rfl) rfl
        · exact ⟨Or.inl rfl, hx.isstart, congrArg Sync.waiting hx.sync, hsit⟩
  | sitUse u =>
      dsimp only [segment]
      split
      · exact attends_wait hx rfl trivial rfl rfl
      · exact attends_ret hx rfl _
  | sitRecord u =>
      dsimp only [segment, deskCostBackup]
      split
      · exact attends_wait (hx.trans ⟨rfl, rfl, rfl, rfl, fun _ => rfl⟩) rfl trivial rfl rfl
      · exact attends_ret hx rfl _
  | sitCost u c => exact ends _ u hx rfl
  | backRecord w c =>
      obtain ⟨w', st, hw, hk⟩ := hpc
      obtain ⟨rfl, -⟩ := Prod.mk.inj (Option.some.inj hw)
      exact attends_wait hx rfl ⟨w, _, rfl, keeps hk⟩ rfl rfl
  | backAdd w c =>
      obtain ⟨w', st, hw, hk⟩ := hpc
      obtain ⟨rfl, -⟩ := Prod.mk.inj (Option.some.inj hw)
      exact attends_wait hx rfl ⟨w, _, rfl, keeps hk⟩ rfl rfl
  | backQuery w c =>
      obtain ⟨w', st, hw, hk⟩ := hpc
      obtain ⟨rfl, -⟩ := Prod.mk.inj (Option.some.inj hw)
      dsimp only [segment]
      split
      · exact attends_wait hx rfl ⟨w, _, rfl, keeps hk⟩ rfl rfl
      · exact attends_walkOn hx rfl (keeps (w := { w with i := w.i + 1 }) hk)
  | backPush w c =>
      obtain ⟨w', st, hw, hk⟩ := hpc
      obtain ⟨rfl, -⟩ := Prod.mk.inj (Option.some.inj hw)
      dsimp only [segment]
      split
      · exact attends_ret hx rfl _
      · exact attends_walkOn hx rfl (keeps (w := { w with i := w.i + 1 }) hk)
  | backSave w =>
      obtain ⟨w', st, hw, hk⟩ := hpc
      obtain ⟨rfl, -⟩ := Prod.mk.inj (Option.some.inj hw)
      have hr : SameBarrier d (replaceCosts (executed d inp (.backSave w)) w.costs) :=
        hx.trans ⟨rfl, rfl, rfl, rfl, fun _ => rfl⟩
      dsimp only [segment]
      rcases keeps hk with ⟨u, k, hku, hu⟩ | ⟨r, hkr⟩
      · rw [hku]
        exact attends_actstandup hr rfl hids (u := u) hu k
      · rw [hkr]
        exact attends_freeDesk hr rfl hids r
  | kickRemove uid k => exact attends_wait hx rfl trivial rfl rfl
  | kickLeave uid k =>
      cases k with
      | leave k => exact attends_afterLeave hx rfl _ k
      | free r => exact attends_freeLoop hx rfl hids r
  | dismissAgent uid => exact attends_ret hx rfl _
  | freeAgent u r => exact attends_kick hx rfl hids u _
  | freeDismiss r => exact attends_wait hx rfl trivial rfl rfl
  | freeGamedb r => exact attends_wait hx rfl trivial rfl rfl
  | freeLobby r =>
      refine attends_ret (hx.trans ?_) rfl r
      exact ⟨rfl, rfl, rfl, rfl, fun _ => rfl⟩
  | monitor => simp [Pc.background] at hs
  | ready => simp [Pc.background] at hs
  | _ =>
      obtain ⟨w, st, hw, -⟩ := hpc
      simp [Pc.walk?] at hw

end Attends

/-! ### Runs -/

/-- **The invariant**: one operation at most is being served, `new_desk` waits for the game to
begin, and the registered seats are those that are taken or about to be. -/
structure Attended (d : Desk) (l : List Pc) : Prop where
  attending : ∀ pc ∈ l, pc.attending d
  one : l.countP (fun pc => !pc.background) ≤ 1
  isstart : d.isstart = false
  asleep : .ready ∈ l → d.sync.waiting = some .ready
  booked : Booked d l

theorem Attended.perm {d : Desk} {l l' : List Pc} (hp : l'.Perm l) (h : Attended d l) :
    Attended d l' where
  attending := fun pc hpc => h.attending pc (hp.mem_iff.1 hpc)
  one := hp.countP_eq _ ▸ h.one
  isstart := h.isstart
  asleep := fun hr => h.asleep (hp.mem_iff.1 hr)
  booked := h.booked.perm hp

/-- Only the seats of the users matter. -/
theorem attending_congr {d d' : Desk} {pc : Pc} (hu : d'.users = d.users) (ho : d'.objs = d.objs)
    (h : pc.attending d) : pc.attending d' := by
  cases d
  cases d'
  dsimp only at hu ho
  subst hu ho
  cases pc <;> exact h

theorem Attended.cs {d : Desk} {l : List Pc} (b : Bool) (q : List (Ref × Cmd))
    (h : Attended d l) : Attended { d with csBusy := b, csQueue := q } l where
  attending := fun pc hpc => attending_congr (d := d) rfl rfl (h.attending pc hpc)
  one := h.one
  isstart := h.isstart
  asleep := h.asleep
  booked := h.booked.same (d := d) ⟨rfl, rfl, rfl, rfl, fun _ => rfl⟩ rfl

/-- The points of `new_desk` before a game. -/
theorem background_of_attending {d : Desk} {pc : Pc} (hpc : pc.attending d)
    (hb : pc.background = true) : pc = .monitor ∨ pc = .ready := by
  cases pc with
  | monitor => exact Or.inl rfl
  | ready => exact Or.inr rfl
  | _ =>
      first
        | simp [Pc.background] at hb; done
        | (obtain ⟨w, st, hw, -⟩ := hpc; simp [Pc.walk?] at hw)

theorem pending_background {d : Desk} {l : List Pc} (ha : ∀ pc ∈ l, pc.attending d)
    (hb : ∀ pc ∈ l, pc.background = true) : pending l = [] := by
  refine List.filterMap_eq_nil_iff.2 fun pc hpc => ?_
  rcases background_of_attending (ha pc hpc) (hb pc hpc) with rfl | rfl <;> rfl

/-- `new_desk` reaches its barrier. -/
theorem Attended.park {d : Desk} {rest : List Pc} (h : Attended d (.monitor :: rest)) :
    Attended { d.called .monitorDesk with
      sync := { d.sync with waiting := some .ready, driver := some .timeout } }
      (.ready :: rest) where
  attending := by
    intro pc hpc
    rcases List.mem_cons.1 hpc with rfl | hpc
    · trivial
    · exact attending_congr (d := d) rfl rfl (h.attending pc (List.mem_cons_of_mem _ hpc))
  one := h.one
  isstart := h.isstart
  asleep := fun _ => rfl
  booked := ⟨h.booked.seats, h.booked.count, h.booked.heard⟩

/-- After the work of an operation everything is in order again. -/
theorem Attends.attended {d : Desk} {ps rest : List Pc} {o : Out}
    (hrest : ∀ pc ∈ rest, pc.background = true) (h : Attended d (ps ++ rest))
    (ho : Attends d ps o) : Attended o.d (o.pcs ++ rest) := by
  have harest : ∀ pc ∈ rest, pc.attending d := fun pc hpc =>
    h.attending pc (List.mem_append_right _ hpc)
  have hnil := pending_background harest hrest
  have hbooked : Booked d ps := h.booked.same (.refl d) (by simp [hnil])
  refine ⟨?_, ?_, ho.isstart.trans h.isstart, ?_, ?_⟩
  · intro pc hpc
    rcases List.mem_append.1 hpc with hpc | hpc
    · rcases ho.pcs with he | ⟨pc', he, ha, -⟩
      · simp [he] at hpc
      · obtain rfl : pc = pc' := by simpa [he] using hpc
        exact ha
    · rcases background_of_attending (harest pc hpc) (hrest pc hpc) with rfl | rfl <;> trivial
  · have hzero : rest.countP (fun pc => !pc.background) = 0 :=
      List.countP_eq_zero.2 fun pc hpc => by simp [hrest pc hpc]
    rw [List.countP_append, hzero]
    rcases ho.pcs with he | ⟨pc', he, -⟩
    · simp [he]
    · rw [he]
      exact List.countP_le_length
  · intro hr
    rw [ho.waiting]
    refine h.asleep (List.mem_append_right _ ?_)
    rcases List.mem_append.1 hr with hr | hr
    · rcases ho.pcs with he | ⟨pc', he, -, hn⟩
      · simp [he] at hr
      · obtain rfl : Pc.ready = pc' := by simpa [he] using hr
        simp [Pc.newDesk] at hn
    · exact hr
  · exact (ho.booked hbooked).same (.refl o.d) (by simp [hnil])

section Runs

variable {id creater timelimit : ℕ} {pay : Pay} {s : Sys}

/-- **The registered seats are those that are taken or about to be, along every run** that meets the
condition. -/
theorem booked_of_keepsSeat (h : desk.Reach SeatOpsKept (created id creater pay timelimit) s) :
    Attended s.shared (pcs s) := by
  have hinv : ∀ s, desk.Reach SeatOpsKept (created id creater pay timelimit) s →
      Alone s ∧ OneNewDesk s.shared (pcs s) ∧ SeatInv s.shared (pcs s) := by
    intro s hs
    have hc := hs.mono fun s e (hC : SeatOpsKept s e) => hC.1.1
    exact ⟨alone_of_complete hc, one_newDesk hs,
      seatInv_of_sitsApart (hc.mono fun s e => sitsApart_of_complete e)⟩
  refine Machine.Reach.inv (P := fun s => Attended s.shared (pcs s)) ?_ ?_ (h.and_inv hinv)
  · refine ⟨?_, ?_, rfl, ?_, ⟨?_, ?_, ?_⟩⟩
    · simp [created, pcs, Pc.attending]
    · simp [created, pcs, Pc.background]
    · simp [created, pcs]
    · intro seat
      simp [created, pcs, Desk.create, Sync.regs, SyncUsers.regs, pending, Pc.sitting?]
    · rfl
    · intro uid u hu
      simp [created, Desk.create] at hu
  · rintro s e s' hI ⟨⟨⟨hC, hops⟩, hkeeps⟩, halone, hone, hseat⟩ he
    rcases desk_cases he with ⟨q, rfl, hq⟩ | ⟨j, inp, rest, b, q, l, hj, hp, hen, hd, hp', hl⟩
    · rcases hq with rfl | ⟨hbusy, uid, c, inp, rfl⟩
      · exact hI
      · -- a command is queued only while another one holds `d.cs`
        rcases hC with ht | ⟨-, hfree⟩
        · simp [Req.timer] at ht
        · simp [hbusy] at hfree
    · -- no command is queued
      obtain ⟨-, hcs⟩ := single_job s.shared inp j
      rw [hcs, halone.queue] at hl
      obtain rfl : l = [] := by
        rcases hl with ⟨rfl, -⟩ | ⟨u, c, hl, -⟩
        · rfl
        · simp at hl
      have hI' := hI.perm hp.symm
      suffices hm : Attended (j.out s.shared inp).d ((j.out s.shared inp).pcs ++ rest) by
        rw [hd]
        exact (hm.cs b q).perm hp'
      have hbase := (hseat.perm hp).base
      cases e with
      | call r inp' =>
          have hidle : ∀ pc ∈ pcs s, pc.background = true := by
            rcases hC with ht | ⟨hi, -⟩
            · cases r <;> simp_all [Req.timer, Req.seating]
            · intro pc hpc
              obtain ⟨co, hco, rfl⟩ := List.mem_map.1 hpc
              exact hi co hco
          have hrest : ∀ pc ∈ rest, pc.background = true := fun pc hpc =>
            hidle pc (hp.mem_iff.2 (List.mem_append_right _ hpc))
          have hb : SeatBase s.shared [] :=
            hseat.base.same (.refl _) (pending_background hI.attending hidle).symm
          by_cases hr : ∃ uid c, r = .client uid c
          · obtain ⟨uid, c, rfl⟩ := hr
            obtain rfl : c = .dismissApply := by cases c <;> simp_all [Req.seating]
            simp only [jobOf] at hj
            split at hj
            · cases hj
            · obtain ⟨u, hu, heq⟩ := Option.map_eq_some_iff.1 hj
              obtain ⟨rfl, rfl⟩ := Prod.mk.inj heq
              have hlook : s.shared.usermap.lookup uid = some u := by
                unfold admits at hu
                split at hu
                · exact hu
                · cases hu
              have huid := (hb.ids uid u hlook).1
              exact (attends_dismissApply hI.isstart rfl (fun uid v hv => (hb.ids uid v hv).1)
                (huid.symm ▸ hlook) (hkeeps u hlook)).attended hrest hI'
          · obtain ⟨rfl, rfl⟩ : j = .req r ∧ inp = inp' := by
              cases r <;> simp_all [jobOf]
            refine (attends_req hb hops (fun uid c hrc => hr ⟨uid, c, hrc⟩)
              fun uid u hru hu => ?_).attended hrest hI'
            subst hru
            exact hkeeps u hu
      | resume k inp' =>
          obtain ⟨co, -, hco⟩ := Option.map_eq_some_iff.1 hj
          obtain ⟨rfl, rfl⟩ := Prod.mk.inj hco
          have hatt := hI'.attending co.pc (List.mem_append_left _ (by simp [Job.pcs]))
          cases hs : co.pc.background with
          | false =>
              have hrest : ∀ pc ∈ rest, pc.background = true := by
                have hone' := hI'.one
                rw [Job.pcs, List.singleton_append, List.countP_cons, hs] at hone'
                have hzero : rest.countP (fun pc => !pc.background) = 0 := by
                  simpa using hone'
                intro pc hpc
                simpa using List.countP_eq_zero.1 hzero pc hpc
              have hnil := pending_background
                (fun pc hpc => hI'.attending pc (List.mem_append_right _ hpc)) hrest
              have hpend : pending [co.pc] = pending ((Job.seg co.pc).pcs ++ rest) := by
                rw [pending_append, hnil, List.append_nil, Job.pcs]
              have hb : SeatBase s.shared [co.pc] := hbase.same (.refl _) hpend
              exact (attends_seg hb hatt inp' hs).attended hrest hI'
          | true =>
              rcases background_of_attending hatt hs with hpc | hpc
              · -- `new_desk` reaches its barrier
                have ht := (hone.perm hp).timely co.pc (List.mem_append_left _ (by simp [Job.pcs]))
                rw [hpc] at ht hI' ⊢
                have hwait : (executed s.shared inp' .monitor).sync.waiting = none := ht.2
                rcases sleepOn_cases (executed s.shared inp' .monitor) .ready .ready with
                  ⟨-, h⟩ | ⟨hne, -⟩
                · rw [Job.out, segment, h]
                  exact hI'.park
                · exact absurd hwait hne
              · -- `new_desk` is asleep
                rw [hpc] at hI' hen
                have hwake := hen .ready (by simp [Job.pcs])
                have hasleep := hI'.asleep (List.mem_append_left _ (by simp [Job.pcs]))
                simp [Pc.enabled, hasleep] at hwake

/-- **The barrier knows exactly the seated players whenever no request is in flight**, in every run
that meets the condition. -/
theorem registered_of_keepsSeat (h : desk.Reach SeatOpsKept (created id creater pay timelimit) s)
    (hi : Idle s) : Registered s.shared := by
  have hbooked := (booked_of_keepsSeat h).booked
  have hnil := pending_of_idle hi
  refine ⟨fun seat => ?_, ?_⟩
  · rw [hbooked.seats, hnil]
    simp
  · rw [hbooked.count, hnil]
    simp

end Runs

/-- User 2 sits at the desk of user 1, and user 3 has come and applied for the dismissal. -/
theorem registered_joinAndSit :
    ∃ s, (desk.Reach SeatOpsKept (created 100001 1 ⟨true, 3⟩ 30) s ∧ Idle s ∧
      s.shared.users.keys = [1] ∧ s.shared.usermap.keys = [2]) ∧ Registered s.shared := by
  obtain ⟨s, hs, hp⟩ := Machine.exists_reach (M := desk) (C := SeatOpsKept)
    (i := created 100001 1 ⟨true, 3⟩ 30)
    (joinAndSit ++ [.call (.join 3 false) {}, .resume 1 {}, .resume 1 {},
      .call (.client 3 .dismissApply) {}, .resume 1 {}, .resume 1 {}, .resume 1 {}, .resume 1 {}])
    (p := fun s => decide (Idle s ∧ s.shared.users.keys = [1] ∧ s.shared.usermap.keys = [2]))
    (by decide +kernel)
  obtain ⟨hi, hk⟩ := of_decide_eq_true hp
  exact ⟨s, ⟨hs, hi, hk⟩, registered_of_keepsSeat hs hi⟩

/-- **A seat that is given back stays registered.** -/
theorem standup_stays_registered :
    ¬ ∀ (id creater timelimit : ℕ) (pay : Pay) (s : Sys),
      desk.Reach SeatOps (created id creater pay timelimit) s → Idle s → Registered s.shared := by
  intro hall
  obtain ⟨s, hs, hp⟩ := Machine.exists_reach (M := desk) (C := SeatOps)
    (i := created 100001 1 ⟨false, 3⟩ 30)
    [.call (.join 2 false) {}, .resume 1 {}, .resume 1 {}, .call (.sitdown 2 none) {}, .resume 1 {},
      .call (.standup 2) {}, .resume 1 {}]
    (p := fun s => decide (Idle s ∧ s.shared.users.keys = [] ∧ s.shared.sync.count = 1))
    (by decide +kernel)
  obtain ⟨hi, hk, hcount⟩ := of_decide_eq_true hp
  have hreg := (hall _ _ _ _ s hs hi).count
  rw [hk, hcount] at hreg
  exact absurd hreg (by decide)

end Halieutics
