/-
**When a game starts.**

`new_desk` waits until the master says that he is ready, and `cli:ready` lets him through when
everybody else in `d.users` is flagged ready.  The flag belongs to the user, not to his seat: who
stands up keeps it, and is counted as ready when he sits down again.  And the master himself is not
looked for in `d.users`: his command may come before `init_user` has entered him, or after he has
been dropped.

Main definitions:

* `Halieutics.heard` — an observer that notes who has said that he is ready since he took his seat;
* `Halieutics.Lawful` — **what a start requires**;
* `Halieutics.StartsWell` — nobody takes a seat with a flag of old, and the master is there.

Main results:

* `Halieutics.releases_of_woken` — only the command `ready` of the master ends the wait;
* `Halieutics.lawful_of_startsWell` — **every start is lawful** in a run that meets the condition;
* `Halieutics.started_with_old_flag` — user 2 stands up and sits down again, and the game starts
  without him being ready.
-/

import Halieutics.DeskCapacity
import Halieutics.DeskGame

set_option relaxedAutoImplicit false
set_option autoImplicit false

namespace Halieutics

open LuaTable Coroutine

/-! ### Who is ready -/

/-- A user whose command `ready` is accepted is noted. -/
def noteReady (d : Desk) (w : List Ref) : Option (Ref × Cmd) → List Ref
  | some (u, .ready) => if (d.objs u).audience = some true then w else u :: w
  | _ => w

/-- **The observer**: who is given a seat is forgotten, and who says that he is ready is noted. -/
def heard (d : Desk) (j : Job) (w : List Ref) : List Ref :=
  match j with
  | .req (.sitdown uid withseat) =>
      w.filter fun u => u ∉ (pending (sitdown d uid withseat).pcs).map Prod.fst
  | j => noteReady d w (j.command d)

/-- **What a start requires**: the master `u` is seated, somebody else is, and everybody else who is
seated has said that he is ready. -/
structure Lawful (d : Desk) (w : List Ref) (u : Ref) : Prop where
  master : (d.objs u).master = true
  seated : u ∈ vals d.users
  others : ∃ v ∈ vals d.users, (d.objs v).id ≠ (d.objs u).id
  ready : ∀ v ∈ vals d.users, (d.objs v).id ≠ (d.objs u).id → v ∈ w

/-- Before the game, nobody but the creator is given a seat while he is flagged ready. -/
def FreshSeat (d : Desk) : Job → Prop
  | .req (.sitdown uid withseat) => d.count = 0 →
      ∀ u ∈ (pending (sitdown d uid withseat).pcs).map Prod.fst,
        (d.objs u).id ≠ d.creater → (d.objs u).ready = false
  | _ => True

/-- There are others than `u` at the desk, and all of them are flagged ready. -/
def othersReady (d : Desk) (u : Ref) : Bool :=
  let others := (vals d.users).filter fun v => (d.objs v).id != (d.objs u).id
  !others.isEmpty && others.all fun v => (d.objs v).ready

/-- When the master ends the wait, he has not been dropped, and is not on the way to his only
seat. -/
def MasterThere (s : Sys) (j : Job) : Prop :=
  match j.command s.shared with
  | some (u, .ready) => releases s.shared j = true → othersReady s.shared u = true →
      (s.shared.objs u).audience ≠ none ∧
      (u ∈ (pending (pcs s)).map Prod.fst → u ∈ vals s.shared.users)
  | _ => True

/-- **When starts are lawful**: nobody takes a seat with a flag of old, and the master is there. -/
def StartsWell (s : Sys) (j : Job) : Prop := FreshSeat s.shared j ∧ MasterThere s j

instance (d : Desk) (j : Job) : Decidable (FreshSeat d j) := by
  cases j with
  | req r =>
      cases r with
      | sitdown uid withseat =>
          exact inferInstanceAs (Decidable (d.count = 0 →
            ∀ u ∈ (pending (sitdown d uid withseat).pcs).map Prod.fst,
              (d.objs u).id ≠ d.creater → (d.objs u).ready = false))
      | _ => exact inferInstanceAs (Decidable True)
  | _ => exact inferInstanceAs (Decidable True)

instance (s : Sys) (j : Job) : Decidable (MasterThere s j) := by
  unfold MasterThere
  split <;> infer_instance

instance (s : Sys) (j : Job) : Decidable (StartsWell s j) :=
  inferInstanceAs (Decidable (FreshSeat s.shared j ∧ MasterThere s j))

/-! ### The invariants -/

/-- Who is no audience has a seat, or one is pending for him. -/
def People.Placed (p : People) (l : List (Ref × ℤ)) : Prop :=
  ∀ u, (p.objs u).audience = some false → u ∈ vals p.users ∨ u ∈ l.map Prod.fst

/-- The master is the creator. -/
def People.Mastered (p : People) : Prop := ∀ u, (p.objs u).master = true → (p.objs u).id = p.creater

/-- Whoever has a seat, or one pending, and is flagged ready has said so. -/
def People.Flagged (p : People) (l : List (Ref × ℤ)) (w : List Ref) : Prop :=
  ∀ u, u ∈ vals p.users ∨ u ∈ l.map Prod.fst → (p.objs u).ready = true → (p.objs u).id ≠ p.creater →
    u ∈ w

section Moves

variable {p : People} {l rest : List (Ref × ℤ)} {d : Desk} {j : Job} {m : Move} {w : List Ref}

theorem creater_apply (m : Move) (p : People) : (m.apply p).creater = p.creater := by
  cases m with
  | afk uid u =>
      rw [Move.apply, delegate_eq]
      rfl
  | _ => rfl

/-- Who has a seat or is given one stays there, but for the one who stands up. -/
theorem occupant_move (hm : m.May d j) (hp : d.people.Parted (m.before ++ rest)) {u : Ref}
    (hu : u ∈ vals d.users ∨ u ∈ (m.before ++ rest).map Prod.fst)
    (hne : ∀ seat, m ≠ .unseat seat u) :
    u ∈ vals (m.apply d.people).users ∨ u ∈ (m.after ++ rest).map Prod.fst := by
  cases m with
  | sit v seat b =>
      have hnone : d.users.lookup seat = none := lookup_of_parted hp
      have hvals : vals (Move.apply d.people (.sit v seat b)).users = v :: vals d.users :=
        vals_insert hnone
      rw [hvals]
      rcases hu with hu | hu
      · exact Or.inl (List.mem_cons_of_mem _ hu)
      · rcases List.mem_cons.1 hu with rfl | hu
        · exact Or.inl List.mem_cons_self
        · exact Or.inr hu
  | unseat seat v =>
      refine hu.imp_left fun hu => ?_
      rcases List.mem_cons.1 ((vals_perm_erase hm.2).mem_iff.1 hu) with rfl | hu
      · exact absurd rfl (hne seat)
      · exact hu
  | assign v seat free => exact hu.imp_right (List.mem_cons_of_mem _)
  | afk uid v =>
      rw [Move.apply, delegate_eq]
      exact hu
  | _ => exact hu

/-- Who has a seat or is given one was there before, or is given one now. -/
theorem occupant_of_move (hm : m.May d j) {u : Ref}
    (hu : u ∈ vals (m.apply d.people).users ∨ u ∈ (m.after ++ rest).map Prod.fst) :
    (u ∈ vals d.users ∨ u ∈ (m.before ++ rest).map Prod.fst) ∨ ∃ seat free,
    m = .assign u seat free := by
  rcases hu with hu | hu
  · rcases hm.seated hu with hu | ⟨seat, hseat⟩
    · exact Or.inl (Or.inl hu)
    · refine Or.inl (Or.inr (List.mem_map.2 ⟨(u, seat), List.mem_append_left _ hseat, rfl⟩))
  · rw [List.map_append, List.mem_append] at hu
    rcases hu with hu | hu
    · cases m with
      | assign v seat free =>
          obtain rfl := List.mem_singleton.1 hu
          exact Or.inr ⟨seat, free, rfl⟩
      | _ => cases hu
    · refine Or.inl (Or.inr ?_)
      rw [List.map_append]
      exact List.mem_append_right _ hu

theorem placed_move (hm : m.May d j) (hp : d.people.Parted (m.before ++ rest))
    (h : d.people.Placed (m.before ++ rest)) : (m.apply d.people).Placed (m.after ++ rest) := by
  intro u hu
  by_cases hch : u = (m.change d.people).1
  · subst hch
    rw [m.objs_change] at hu
    cases m with
    | assign v seat free => exact Or.inr List.mem_cons_self
    | join user =>
        obtain ⟨-, -, -, haud, -⟩ := hm
        exact absurd (haud.symm.trans hu) (by simp)
    | unseat seat v => exact absurd hu (by simp [Move.change])
    | drop v => exact absurd hu (by simp [Move.change])
    | _ => exact occupant_move hm hp (h _ hu) (by simp)
  · rw [m.objs_ne d.people hch] at hu
    refine occupant_move hm hp (h u hu) ?_
    rintro seat rfl
    exact hch rfl

theorem mastered_move (hm : m.May d j) (h : d.people.Mastered) : (m.apply d.people).Mastered := by
  intro u hu
  rw [creater_apply]
  by_cases hch : u = (m.change d.people).1
  · subst hch
    rw [m.objs_change] at hu ⊢
    cases m with
    | join user =>
        obtain ⟨-, -, -, -, -, -, hmas, -⟩ := hm
        exact (beq_iff_eq.1 (hmas.symm.trans hu)).symm
    | _ => exact h _ hu
  · rw [m.objs_ne d.people hch] at hu ⊢
    exact h u hu

theorem mem_noteReady {u : Ref} (hu : u ∈ w) (x : Option (Ref × Cmd)) : u ∈ noteReady d w x := by
  unfold noteReady
  split
  · split
    · exact hu
    · exact List.mem_cons_of_mem _ hu
  · exact hu

theorem heard_eq (hj : ∀ uid withseat, j ≠ .req (.sitdown uid withseat)) :
    heard d j w = noteReady d w (j.command d) := by
  unfold heard
  split
  · exact absurd rfl (hj _ _)
  · rfl

/-- A user is forgotten only when he is given a seat. -/
theorem mem_heard (inp : Inp) {u : Ref} (hw : u ∈ w)
    (hu : u ∉ (pending (j.out d inp).pcs).map Prod.fst) : u ∈ heard d j w := by
  by_cases hj : ∃ uid withseat, j = .req (.sitdown uid withseat)
  · obtain ⟨uid, withseat, rfl⟩ := hj
    exact List.mem_filter.2 ⟨hw, decide_eq_true hu⟩
  · rw [heard_eq fun uid withseat h => hj ⟨uid, withseat, h⟩]
    exact mem_noteReady hw _

/-- A user who is no audience and says that he is ready is noted. -/
theorem heard_command {u : Ref} (hc : j.command d = some (u, .ready))
    (ha : (d.objs u).audience ≠ some true) : u ∈ heard d j w := by
  rw [heard_eq, hc, noteReady, if_neg ha]
  · exact List.mem_cons_self
  · rintro uid withseat rfl
    cases hc

/-- **Whoever is flagged has said so**, before the game, when nobody takes a seat with a flag of
old. -/
theorem flagged_move {inp : Inp} (hm : m.May d j) (hpend : pending (j.out d inp).pcs = m.after)
    (hcount : d.count = 0) (hst : d.isstart = false) (hC : FreshSeat d j)
    (h : d.people.Flagged (m.before ++ rest) w) :
    (m.apply d.people).Flagged (m.after ++ rest) (heard d j w) := by
  intro u hocc hready hid
  rw [creater_apply] at hid
  -- who was there before and is not given a seat is not forgotten
  have hkept : (∀ seat free, m ≠ .assign u seat free) → (d.people.objs u).ready = true →
      (d.people.objs u).id ≠ d.people.creater → u ∈ heard d j w := by
    intro hass hr hi
    have hold := (occupant_of_move hm hocc).resolve_right fun ⟨seat, free, heq⟩ =>
      hass seat free heq
    refine mem_heard inp (h u hold hr hi) ?_
    rw [hpend]
    cases m with
    | assign v seat free =>
        intro hmem
        obtain rfl := List.mem_singleton.1 hmem
        exact hass seat free rfl
    | _ => simp [Move.after]
  by_cases hch : u = (m.change d.people).1
  · subst hch
    rw [m.objs_change] at hready hid
    cases m with
    | join user =>
        obtain ⟨-, -, -, -, -, hno, -⟩ := hm
        exact absurd (hno.symm.trans hready) (by simp)
    | assign v seat free =>
        obtain ⟨uid, withseat, rfl, -⟩ := hm
        have hmem : v ∈ (pending (sitdown d uid withseat).pcs).map Prod.fst := by
          have hp : pending (sitdown d uid withseat).pcs = [(v, seat)] := hpend
          rw [hp]
          exact List.mem_singleton.2 rfl
        exact absurd (hready.symm.trans (hC hcount v hmem hid)) (by simp)
    | sit v seat b =>
        cases b with
        | true => exact absurd ((hm.2 rfl).symm.trans hst) (by simp)
        | false => exact hkept (by simp) hready hid
    | ready v =>
        obtain ⟨-, hs | ⟨hc, ha⟩⟩ := hm
        · exact absurd (hs.symm.trans hst) (by simp)
        · exact heard_command hc ha
    | _ => exact hkept (by simp) hready hid
  · rw [m.objs_ne _ hch] at hready hid
    refine hkept ?_ hready hid
    rintro seat free rfl
    exact hch rfl

end Moves

/-! ### Before the game -/

/-- The desk is not started before `new_desk` passes the barrier. -/
theorem isstart_job (d : Desk) (inp : Inp) {j : Job} (ht : ∀ pc ∈ j.pcs, pc.timely d)
    (hst : d.count = 0 → d.isstart = false) (hc : (j.out d inp).d.count = 0) :
    d.count = 0 ∧ (j.out d inp).d.isstart = false := by
  by_cases hready : j = .seg .ready
  · subst hready
    have htime := ht .ready (List.mem_singleton.2 rfl)
    have hcount : (executed d inp .ready).count = 0 := (executed_life d inp .ready).1.trans htime
    obtain ⟨d', pc, h, -, hone, -⟩ := segment_ready (executed d inp .ready) inp hcount
    change (segment (executed d inp .ready) inp .ready).d.count = 0 at hc
    rw [h] at hc
    exact absurd (hone.symm.trans hc) Nat.one_ne_zero
  · have hcount := (count_job d inp ht hready).symm.trans hc
    have hst := hst hcount
    refine ⟨hcount, ?_⟩
    by_cases hnew : ∀ pc ∈ j.pcs, pc.newDesk = false
    · exact (steady_job d inp hnew).isstart.trans hst
    · cases j with
      | req r => exact absurd (by simp [Job.pcs]) hnew
      | cmd u c => exact absurd (by simp [Job.pcs]) hnew
      | seg pc =>
          have htime := ht pc (List.mem_singleton.2 rfl)
          have hnewpc : pc.newDesk = true := by
            by_contra hno
            exact hnew fun pc' hpc' => by
              obtain rfl := List.mem_singleton.1 hpc'
              exact Bool.eq_false_iff.2 hno
          by_cases hmon : pc = .monitor
          · subst hmon
            have hwait : (executed d inp .monitor).sync.waiting = none :=
              (executed_life d inp .monitor).2.2.trans htime.2
            obtain ⟨d', h, hl⟩ := segment_monitor (executed d inp .monitor) inp hwait
            change (segment (executed d inp .monitor) inp .monitor).d.isstart = false
            rw [h]
            exact (congrArg Life.isstart hl).trans ((executed_life d inp .monitor).2.1.trans hst)
          · have hplay := playing_of_newDesk hnewpc hmon fun h => hready (h ▸ rfl)
            have hpos := count_of_playing hplay htime
            omega

/-- **The invariant of the flags**, as long as no game has begun. -/
def Flags (d : Desk) (l : List Pc) (w : List Ref) : Prop :=
  d.count = 0 → d.isstart = false ∧ d.people.Flagged (pending l) w

section Runs

variable {C : Sys → Ev → Prop} {id creater timelimit : ℕ} {pay : Pay} {s s' : Sys} {e : Ev}
  {w : List Ref}

/-- In every run, whoever is no audience has a seat or is given one, and the master is the
creator. -/
theorem placed_of_reach (h : desk.Reach C (created id creater pay timelimit) s) :
    s.shared.people.Placed (pending (pcs s)) ∧ s.shared.people.Mastered := by
  have hinv := h.and_inv (P := fun s => s.shared.people.Parted (pending (pcs s)))
    fun s hs => (counted_of_reach hs).2.parted
  refine (people_inv (I := fun p l => p.Parted l ∧ p.Placed l ∧ p.Mastered) ?_ ?_ ?_ hinv).2
  · intro p l l' hp hI
    refine ⟨(((hp.map _).append_left _).append_left _).nodup_iff.1 hI.1, fun u hu => ?_, hI.2.2⟩
    exact (hI.2.1 u hu).imp_right (hp.map _).mem_iff.1
  · refine ⟨(counted_of_reach (C := C) .init).2.parted, fun u hu => ?_, fun u hu => ?_⟩
    · cases hu
    · cases hu
  · exact fun s e j inp m rest _ _ _ hm hI =>
      ⟨parted_move hm hI.1, placed_move hm hI.1 hI.2.1, mastered_move hm hI.2.2⟩

theorem flags_of_seen
    (h : desk.Seen (noted heard) (fun s _ e => Under StartsWell s e)
      (created id creater pay timelimit) [] s w) : Flags s.shared (pcs s) w := by
  have hinv := h.and_inv (P := fun s _ => OneNewDesk s.shared (pcs s)) fun s w hs =>
    one_newDesk (hs.reach (D := Always) fun _ _ _ _ => trivial)
  refine seen_inv (I := Flags) ?_ ?_ ?_ ?_ ?_ hinv
  · intro d l l' w hp hI hc
    refine (hI hc).imp_right fun hf u hu => hf u (hu.imp_right ?_)
    exact ((hp.filterMap _).map _).mem_iff.2
  · exact fun d l b q w hI hc => hI hc
  · exact fun d l u c w hI hc => hI hc
  · refine fun _ => ⟨rfl, fun u hu => ?_⟩
    rcases hu with hu | hu
    · cases hu
    · cases hu
  · intro s w e j inp rest ⟨hC, hone⟩ hj hp hI hc
    rw [Under, hj] at hC
    have htime : ∀ pc ∈ j.pcs, pc.timely s.shared := fun pc hpc =>
      hone.timely pc (hp.mem_iff.2 (List.mem_append_left _ hpc))
    obtain ⟨hcount, hst'⟩ := isstart_job s.shared inp htime (fun hc => (hI hc).1) hc
    obtain ⟨hst, hflag⟩ := hI hcount
    obtain ⟨m, hm, hpeople, hpend⟩ := people_job s.shared inp j
    refine ⟨hst', ?_⟩
    rw [pending_append, hm.pending] at hflag
    rw [hpeople, pending_append, hpend]
    exact flagged_move hm hpend hcount hst hC.1 hflag

/-! ### The start -/

theorem othersReady_iff {d : Desk} {u : Ref} : othersReady d u = true ↔
    (∃ v ∈ vals d.users, (d.objs v).id ≠ (d.objs u).id) ∧
      ∀ v ∈ vals d.users, (d.objs v).id ≠ (d.objs u).id → (d.objs v).ready = true := by
  simp only [othersReady, Bool.and_eq_true, Bool.not_eq_true', List.isEmpty_eq_false_iff_exists_mem,
    List.mem_filter, List.all_eq_true, bne_iff_ne, and_imp]

/-- The command `ready` of the master that ends the wait. -/
theorem cliReady_of_woken {d : Desk} {u : Ref} (hw : d.sync.waiting = some .ready)
    (hw' : (cliReady d u).d.sync.waiting ≠ some .ready) :
    (d.objs u).audience ≠ some true ∧ (d.objs u).master = true ∧
      (∃ v ∈ vals d.users, (d.objs v).id ≠ (d.objs u).id) ∧
      ∀ v ∈ vals d.users, (d.objs v).id ≠ (d.objs u).id → (d.objs v).ready = true := by
  unfold cliReady at hw'
  dsimp only at hw'
  split at hw'
  · exact absurd hw hw'
  · rename_i haud
    split at hw'
    · rename_i hmas
      split at hw'
      · exact absurd hw hw'
      · rename_i hall
        split at hw'
        · exact absurd hw hw'
        · rename_i hne
          refine ⟨haud, hmas, ?_, fun v hv hid => ?_⟩
          · obtain ⟨v, hv⟩ := List.exists_mem_of_ne_nil _ hne
            obtain ⟨hv, hid⟩ := List.mem_filter.1 hv
            exact ⟨v, hv, bne_iff_ne.1 hid⟩
          · by_contra hno
            refine hall (List.any_eq_true.2 ⟨v, List.mem_filter.2 ⟨hv, bne_iff_ne.2 hid⟩, ?_⟩)
            exact Bool.not_eq_true' _ ▸ Bool.eq_false_iff.2 hno
    · exact absurd hw hw'

/-- There is only one `new_desk`. -/
theorem OneNewDesk.eq {d : Desk} {l : List Pc} (h : OneNewDesk d l) {pc pc' : Pc} (hpc : pc ∈ l)
    (hpc' : pc' ∈ l) (hnew : pc.newDesk = true) (hnew' : pc'.newDesk = true) : pc' = pc := by
  obtain ⟨l₁, l₂, rfl⟩ := List.append_of_mem hpc
  have hothers := (h.perm List.perm_middle).others hnew
  by_contra hne
  have hmem : pc' ∈ l₁ ++ l₂ := (List.mem_cons.1 (List.perm_middle.mem_iff.1 hpc')).resolve_left hne
  rw [hothers pc' hmem] at hnew'
  cases hnew'

/-- **Only the command `ready` of the master ends the wait of `new_desk`.** -/
theorem releases_of_woken {d : Desk} {inp : Inp} {j : Job} {l : List Pc} (hone : OneNewDesk d l)
    (hp : ∀ pc ∈ j.pcs, pc ∈ l ∧ pc.enabled d inp = true) (hr : .ready ∈ l)
    (hw : d.sync.waiting = some .ready) (hw' : (j.out d inp).d.sync.waiting ≠ some .ready) :
    releases d j = true := by
  by_contra hrel
  refine hw' (waiting_job d inp (fun pc hpc => hone.timely pc (hp pc hpc).1) (fun pc hpc => ?_)
    (Bool.eq_false_iff.2 hrel) hw)
  by_contra hnew
  have hnew : pc.newDesk = true := Bool.eq_true_of_not_eq_false hnew
  obtain ⟨hmem, hen⟩ := hp pc hpc
  -- `new_desk` itself sleeps
  obtain rfl := hone.eq hr hmem rfl hnew
  simp [Pc.enabled, hw] at hen

/-- **Every start is lawful** in a run in which nobody takes a seat with a flag of old and the
master is there when he says that he is ready: he is seated, somebody else is, and everybody else
who is seated has said that he is ready since he took his seat. -/
theorem lawful_of_startsWell
    (h : desk.Seen (noted heard) (fun s _ e => Under StartsWell s e)
      (created id creater pay timelimit) [] s w)
    (hC : Under StartsWell s e) (he : desk.exec s e = some s') (hr : .ready ∈ pcs s)
    (hw : s.shared.sync.waiting = some .ready) (hw' : s'.shared.sync.waiting ≠ some .ready) :
    ∃ u, Lawful s.shared w u := by
  have hreach : desk.Reach Always (created id creater pay timelimit) s :=
    h.reach fun _ _ _ _ => trivial
  have hone := one_newDesk hreach
  obtain ⟨hplaced, hmastered⟩ := placed_of_reach hreach
  rcases desk_cases he with ⟨q, rfl, -⟩ | ⟨j, inp, rest, b, q, l, hj, hp, hen, hd, -⟩
  · exact absurd hw hw'
  · rw [hd] at hw'
    rw [Under, hj] at hC
    have hpcs : ∀ pc ∈ j.pcs, pc ∈ pcs s ∧ pc.enabled s.shared inp = true := fun pc hpc =>
      ⟨hp.mem_iff.2 (List.mem_append_left _ hpc), hen pc hpc⟩
    have hrel := releases_of_woken hone hpcs hr hw hw'
    obtain ⟨hst, hflag⟩ := flags_of_seen h (hone.timely .ready hr)
    obtain ⟨u, hc⟩ : ∃ u, j.command s.shared = some (u, .ready) := by
      unfold releases at hrel
      split at hrel
      · exact ⟨_, by assumption⟩
      · cases hrel
    change (j.out s.shared inp).d.sync.waiting ≠ some .ready at hw'
    rw [out_of_command inp hc] at hw'
    obtain ⟨haud, hmas, hothers, hready⟩ := cliReady_of_woken hw hw'
    have hseated : u ∈ vals s.shared.users := by
      have hwell := hC.2
      unfold MasterThere at hwell
      rw [hc] at hwell
      have hwell := hwell hrel (othersReady_iff.2 ⟨hothers, hready⟩)
      have hfalse : (s.shared.objs u).audience = some false := by
        cases ha : (s.shared.objs u).audience with
        | none => exact absurd ha hwell.1
        | some b =>
            cases b with
            | false => rfl
            | true => exact absurd ha haud
      exact (hplaced u hfalse).elim (fun hu => hu) hwell.2
    refine ⟨u, hmas, hseated, hothers, fun v hv hid => ?_⟩
    refine hflag v (Or.inl hv) (hready v hv hid) fun hvid => hid ?_
    exact hvid.trans (hmastered u hmas).symm

/-- The creator and user 2 come and sit down, while `new_desk` waits. -/
def twoSit : List Ev :=
  [.resume 0 {}, .call (.join 1 false) {}, .resume 1 {}, .resume 1 {}, .call (.join 2 false) {},
    .resume 1 {}, .resume 1 {}, .call (.sitdown 1 none) {}, .resume 1 {},
    .call (.sitdown 2 none) {},
    .resume 1 {}]

/-- The command of the master ends the wait of `new_desk` in the state `s`. -/
def starts (s : Sys) : Bool :=
  ((pcs s).any fun pc => pc matches .ready) && s.shared.sync.waiting == some .ready &&
    (desk.exec s (.call (.client 1 .ready) {})).any fun s' => s'.shared.sync.waiting != some .ready

theorem of_starts (h : starts s = true) : .ready ∈ pcs s ∧ s.shared.sync.waiting = some .ready ∧
    ∃ s', desk.exec s (.call (.client 1 .ready) {}) = some s' ∧
      s'.shared.sync.waiting ≠ some .ready := by
  simp only [starts, Bool.and_eq_true, List.any_eq_true, Option.any_eq_true, beq_iff_eq,
    bne_iff_ne] at h
  obtain ⟨⟨⟨pc, hpc, hready⟩, hw⟩, s', hs', hw'⟩ := h
  refine ⟨?_, hw, s', hs', hw'⟩
  split at hready
  · exact hpc
  · cases hready

/-- User 2 says that he is ready, and the creator starts the game. -/
theorem lawful_twoSit : ∃ s w,
    desk.Seen (noted heard) (fun s _ e => Under StartsWell s e)
    (created 100001 1 ⟨false, 3⟩ 30) [] s w ∧
      w = [1] ∧ ∃ u, Lawful s.shared w u := by
  obtain ⟨s, w, hs, hp⟩ := Machine.exists_seen (M := desk) (noted heard)
    (fun s _ e => Under StartsWell s e) (created 100001 1 ⟨false, 3⟩ 30) []
    (twoSit ++ [.call (.client 2 .ready) {}])
    (p := fun q => decide (q.2 = [1] ∧ starts q.1 = true ∧
      Under StartsWell q.1 (.call (.client 1 .ready) {}))) (by decide +kernel)
  obtain ⟨hone, hstarts, hC⟩ := of_decide_eq_true hp
  obtain ⟨hr, hw, s', he, hw'⟩ := of_starts hstarts
  exact ⟨s, w, hs, hone, lawful_of_startsWell hs hC he hr hw hw'⟩

/-- **User 2 says that he is ready, stands up and sits down again**, and the creator starts the
game. -/
theorem started_with_old_flag :
    ¬ ∀ (id creater timelimit : ℕ) (pay : Pay) (s s' : Sys) (e : Ev) (w : List Ref),
      desk.Seen (noted heard) (fun s _ e => Always s e) (created id creater pay timelimit) [] s w →
        desk.exec s e = some s' → .ready ∈ pcs s → s.shared.sync.waiting = some .ready →
          s'.shared.sync.waiting ≠ some .ready → ∃ u, Lawful s.shared w u := by
  intro hall
  obtain ⟨s, w, hs, hp⟩ := Machine.exists_seen (M := desk) (noted heard)
    (fun s _ e => Always s e) (created 100001 1 ⟨false, 3⟩ 30) []
    (twoSit ++ [.call (.client 2 .ready) {}, .call (.standup 2) {}, .resume 1 {},
      .call (.sitdown 2 none) {}, .resume 1 {}])
    (p := fun q => decide (q.2 = [] ∧ starts q.1 = true)) (by decide +kernel)
  obtain ⟨hnobody, hstarts⟩ := of_decide_eq_true hp
  obtain ⟨hr, hw, s', he, hw'⟩ := of_starts hstarts
  obtain ⟨u, hu⟩ := hall _ _ _ _ s s' _ w hs he hr hw hw'
  obtain ⟨v, hv, hid⟩ := hu.others
  have hnone : w = [] := hnobody
  have hmem := hu.ready v hv hid
  rw [hnone] at hmem
  cases hmem

end Runs

end Halieutics
