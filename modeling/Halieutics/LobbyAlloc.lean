/-
**The lobby hands out every number once.**

A number is in the buffer, or `deskmap` has a desk with it, or a coroutine of the lobby holds it:
the one that assigns it and waits for a new service, or the one that frees it and waits for
`remove_mydesk`.  It is in one of these places only, and it is in the list `actives` of one service
exactly as long as `deskmap` has it or the coroutine that frees it does.

A number could come back twice in one way: `desk_monitor_work` puts it into the buffer if it finds
no desk.  That branch is for the start of the lobby.  Later a timer that has not been cancelled
belongs to a desk that is still there, provided that `monitor_desk` is called once for a desk:
`lobby.free` cancels one timer only, the last that was added.

Main definitions:

* `Allocation` — the numbers, the services and the messages `exit` are in order;
* `Numbers`, `Housed`, `Served`, `Watched` — the four parts of the invariant;
* `monitorOnce` — **the condition**: `monitor_desk` is called at most once for an assignment.

Main results:

* `Numbers.…`, `Housed.…`, `Served.…`, `Watched.…` — what each segment does to each part;
* `allocation_of_monitorOnce` — **the allocation is in order in every run** that meets the
  condition.
-/

import Halieutics.Lobby

set_option relaxedAutoImplicit false
set_option autoImplicit false

namespace Halieutics.Lobby

open Coroutine LuaTable

/-! ### The statement -/

/-- **The allocation is in order**: no number is twice in the buffer or both there and in `deskmap`;
every number of `deskmap` is in one list `actives`, that of its home, once; no list is longer than
the load; and a service that `exit` was sent to has no desks and is in no list from which it could
get one. -/
structure Allocation (d : Data) : Prop where
  buffer : d.buffer.Nodup
  disjoint : ∀ id ∈ d.buffer, d.deskmap.lookup id = none
  home : ∀ id e, d.deskmap.lookup id = some e → (d.homes e.home).actives.count id = 1 ∧
    ∀ h, h ≠ e.home → id ∉ (d.homes h).actives
  load : ∀ h, (d.homes h).actives.length ≤ d.load
  exits : ∀ h ∈ d.exited, (d.homes h).actives = [] ∧
    ∀ game hs, d.games.lookup game = some hs → h ∉ hs

/-- **The condition**: `monitor_desk` is called at most once for an assignment. -/
def monitorOnce (s : Pool Data Pc) : Event Req Inp → Bool
  | .call (.monitorDesk deskid) _ => (s.shared.deskmap.lookup deskid).all fun e => !e.monitored
  | _ => true

/-! ### The invariant -/

/-- The number that a coroutine has taken and not yet entered. -/
def Pc.starting? : Pc → Option ℕ
  | .newservice id _ _ _ => some id
  | _ => none

/-- The desk that a coroutine has taken out and not yet freed. -/
def Pc.leaving? : Pc → Option (ℕ × Desk)
  | .removeMydesk id e => some (id, e)
  | _ => none

/-- The number that a coroutine holds. -/
def Pc.holds? (pc : Pc) : Option ℕ := pc.starting? <|> pc.leaving?.map Prod.fst

/-- `free_desk` of the lobby. -/
def Pc.restoring : Pc → Bool
  | .freeDesk _ => true
  | _ => false

/-- The numbers: in the buffer, in `deskmap`, or held by a coroutine. -/
def places (d : Data) (l : List Pc) : List ℕ :=
  d.buffer ++ (d.deskmap.keys ++ l.filterMap Pc.holds?)

/-- **Every number is in one place**, and none is restored. -/
structure Numbers (d : Data) (l : List Pc) : Prop where
  nodup : (places d l).Nodup
  restoring : ∀ pc ∈ l, pc.restoring = false

/-- A desk is entered, or it is being freed. -/
def Keeps (d : Data) (l : List Pc) (id : ℕ) (e : Desk) : Prop :=
  d.deskmap.lookup id = some e ∨ ∃ pc ∈ l, pc.leaving? = some (id, e)

/-- A number is in the list of one service, once. -/
def Listed (homes : Ref → Home) (id : ℕ) (h : Ref) : Prop :=
  (homes h).actives.count id = 1 ∧ ∀ h', h' ≠ h → (homes h').actives.count id = 0

/-- **Desks are listed by their homes**, and free numbers by nobody. -/
structure Housed (d : Data) (l : List Pc) : Prop where
  out : ∀ id, (id ∈ d.buffer ∨ ∃ pc ∈ l, pc.starting? = some id) →
    ∀ h, (d.homes h).actives.count id = 0
  listed : ∀ id e, Keeps d l id e → Listed d.homes id e.home
  made : ∀ id e, Keeps d l id e → e.home < d.nhome ∧ (d.homes e.home).game = e.info.game
  load : ∀ h, (d.homes h).actives.length ≤ d.load

/-- **The services of a game**, and those that have been ended. -/
structure Served (d : Data) : Prop where
  games : ∀ game hs, d.games.lookup game = some hs →
    hs.Nodup ∧ ∀ h ∈ hs, h < d.nhome ∧ (d.homes h).game = game
  exits : ∀ h ∈ d.exited, h < d.nhome ∧ (d.homes h).actives = [] ∧
    ∀ game hs, d.games.lookup game = some hs → h ∉ hs
  kills : ∀ t ∈ d.timers, ∀ game h, t.work = .kill game h → h < d.nhome ∧ (d.homes h).game = game

/-- **A timer that has not been cancelled watches a desk that is there.** -/
structure Watched (d : Data) : Prop where
  ids : ∀ t ∈ d.timers, t.id < d.ntimer
  last : ∀ id tid, d.monitor.lookup id = some tid → tid < d.ntimer
  live : ∀ t ∈ d.timers, t.cancel = false → ∀ id, t.work = .monitor id →
    ∃ e, d.deskmap.lookup id = some e ∧ e.monitored = true ∧ d.monitor.lookup id = some t.id

/-- **The invariant.** -/
structure Fits (d : Data) (l : List Pc) : Prop where
  numbers : Numbers d l
  housed : Housed d l
  served : Served d
  watched : Watched d

variable {d : Data} {l l' : List Pc}

/-- What the invariant says about the allocation. -/
theorem Fits.allocation (h : Fits d l) : Allocation d where
  buffer := (List.nodup_append.1 h.numbers.nodup).1
  disjoint := by
    intro id hid
    by_contra hsome
    obtain ⟨e, he⟩ := Option.ne_none_iff_exists'.1 hsome
    have hkey : id ∈ d.deskmap.keys := lookup_isSome_iff_mem_keys.1 (by rw [he]; rfl)
    exact (List.nodup_append.1 h.numbers.nodup).2.2 id hid id (List.mem_append_left _ hkey) rfl
  home := by
    intro id e he
    obtain ⟨hcount, hothers⟩ := h.housed.listed id e (Or.inl he)
    exact ⟨hcount, fun h' hne => List.count_eq_zero.1 (hothers h' hne)⟩
  load := h.housed.load
  exits := fun h' hex => (h.served.exits h' hex).2

/-- The invariant does not depend on the order of the coroutines. -/
theorem Fits.perm (h : Fits d l) (hl : l.Perm l') : Fits d l' where
  numbers := {
    nodup := by
      have hp : (places d l).Perm (places d l') :=
        ((hl.filterMap _).append_left _).append_left _
      exact hp.nodup_iff.1 h.numbers.nodup
    restoring := fun pc hpc => h.numbers.restoring pc (hl.mem_iff.2 hpc) }
  housed := by
    have hkeeps : ∀ id e, Keeps d l' id e → Keeps d l id e := by
      rintro id e (he | ⟨pc, hpc, he⟩)
      · exact Or.inl he
      · exact Or.inr ⟨pc, hl.mem_iff.2 hpc, he⟩
    refine ⟨?_, fun id e he => h.housed.listed id e (hkeeps id e he),
      fun id e he => h.housed.made id e (hkeeps id e he), h.housed.load⟩
    rintro id (hid | ⟨pc, hpc, hid⟩)
    · exact h.housed.out id (Or.inl hid)
    · exact h.housed.out id (Or.inr ⟨pc, hl.mem_iff.2 hpc, hid⟩)
  served := h.served
  watched := h.watched

/-- A coroutine that holds no number comes or goes. -/
theorem Fits.cons_idle (h : Fits d l) {pc : Pc} (hs : pc.starting? = none) (hl : pc.leaving? = none)
    (hr : pc.restoring = false) : Fits d (pc :: l) where
  numbers := {
    nodup := by
      have hnone : pc.holds? = none := by simp [Pc.holds?, hs, hl]
      rw [places, List.filterMap_cons_none hnone]
      exact h.numbers.nodup
    restoring := List.forall_mem_cons.2 ⟨hr, h.numbers.restoring⟩ }
  housed := by
    have hkeeps : ∀ id e, Keeps d (pc :: l) id e → Keeps d l id e := by
      rintro id e (he | ⟨pc', hpc, he⟩)
      · exact Or.inl he
      · rcases List.mem_cons.1 hpc with rfl | hpc
        · rw [hl] at he
          cases he
        · exact Or.inr ⟨pc', hpc, he⟩
    refine ⟨?_, fun id e he => h.housed.listed id e (hkeeps id e he),
      fun id e he => h.housed.made id e (hkeeps id e he), h.housed.load⟩
    rintro id (hid | ⟨pc', hpc, hid⟩)
    · exact h.housed.out id (Or.inl hid)
    · rcases List.mem_cons.1 hpc with rfl | hpc
      · rw [hs] at hid
        cases hid
      · exact h.housed.out id (Or.inr ⟨pc', hpc, hid⟩)
  served := h.served
  watched := h.watched

/-- A coroutine ends; the number it holds is lost. -/
theorem Fits.tail {pc : Pc} (h : Fits d (pc :: l)) : Fits d l where
  numbers := {
    nodup := by
      have hsub : (places d l).Sublist (places d (pc :: l)) :=
        ((List.sublist_cons_self pc l).filterMap _).append_left _ |>.append_left _
      exact h.numbers.nodup.sublist hsub
    restoring := (List.forall_mem_cons.1 h.numbers.restoring).2 }
  housed := by
    have hkeeps : ∀ id e, Keeps d l id e → Keeps d (pc :: l) id e := by
      rintro id e (he | ⟨pc', hpc, he⟩)
      · exact Or.inl he
      · exact Or.inr ⟨pc', List.mem_cons_of_mem _ hpc, he⟩
    refine ⟨?_, fun id e he => h.housed.listed id e (hkeeps id e he),
      fun id e he => h.housed.made id e (hkeeps id e he), h.housed.load⟩
    rintro id (hid | ⟨pc', hpc, hid⟩)
    · exact h.housed.out id (Or.inl hid)
    · exact h.housed.out id (Or.inr ⟨pc', List.mem_cons_of_mem _ hpc, hid⟩)
  served := h.served
  watched := h.watched

/-! ### Assigning -/

/-- **A number is drawn**: nobody lists it, and it is nowhere else. -/
theorem Fits.draw (h : Fits d l) {id : ℕ} {b : List ℕ} (hp : d.buffer.Perm (id :: b)) :
    Fits { d with buffer := b } l ∧ id ∉ places { d with buffer := b } l ∧
      ∀ h, (d.homes h).actives.count id = 0 := by
  have hperm : (places d l).Perm (id :: places { d with buffer := b } l) := hp.append_right _
  have hnodup := List.nodup_cons.1 (hperm.nodup_iff.1 h.numbers.nodup)
  refine ⟨⟨⟨hnodup.2, h.numbers.restoring⟩, ?_, ⟨h.served.games, h.served.exits, h.served.kills⟩,
    ⟨h.watched.ids, h.watched.last, h.watched.live⟩⟩, hnodup.1, ?_⟩
  · refine ⟨?_, h.housed.listed, h.housed.made, h.housed.load⟩
    rintro id' (hid | hpc)
    · exact h.housed.out id' (Or.inl (hp.mem_iff.2 (List.mem_cons_of_mem _ hid)))
    · exact h.housed.out id' (Or.inr hpc)
  · exact h.housed.out id (Or.inl (hp.mem_iff.2 List.mem_cons_self))

theorem not_keeps_of_notMem {id : ℕ} (hid : id ∉ places d l) (e : Desk) : ¬ Keeps d l id e := by
  rintro (he | ⟨pc, hpc, he⟩)
  · have hkey : id ∈ d.deskmap.keys := lookup_isSome_iff_mem_keys.1 (by rw [he]; rfl)
    exact hid (List.mem_append_right _ (List.mem_append_left _ hkey))
  · have hh : pc.holds? = some id := by
      cases pc with
      | removeMydesk id' e' =>
          obtain ⟨rfl, -⟩ := Prod.mk.inj (Option.some_inj.1 he)
          rfl
      | _ => cases he
    exact hid
      (List.mem_append_right _ (List.mem_append_right _ (List.mem_filterMap.2 ⟨pc, hpc, hh⟩)))

/-- Entering a new number. -/
theorem places_enter {id : ℕ} (hid : id ∉ places d l) (e : Desk) :
    (places (d.enter id e) l).Perm (id :: places d l) := by
  have hkey : id ∉ d.deskmap.keys := fun hk =>
    hid (List.mem_append_right _ (List.mem_append_left _ hk))
  have hkeys : (d.enter id e).deskmap.keys = id :: d.deskmap.keys := by
    change (d.deskmap.insert id e).keys = _
    rw [AList.keys_insert, List.erase_of_not_mem hkey]
  unfold places
  rw [hkeys]
  exact List.perm_middle

theorem keeps_enter {id id' : ℕ} {e e' : Desk} (h : Keeps (d.enter id e) l id' e') :
    (id' = id ∧ e' = e) ∨ Keeps d l id' e' := by
  rcases h with he | hpc
  · have he : (d.deskmap.insert id e).lookup id' = some e' := he
    rw [lookup_insert_eq] at he
    split at he
    · exact Or.inl ⟨by assumption, (Option.some_inj.1 he).symm⟩
    · exact Or.inr (Or.inl he)
  · exact Or.inr (Or.inr hpc)

/-- A timer that watches another desk goes on. -/
theorem Watched.enter (h : Watched d) {id : ℕ} (hid : d.deskmap.lookup id = none) (e : Desk) :
    Watched (d.enter id e) where
  ids := h.ids
  last := h.last
  live := by
    intro t ht hc id' hw
    obtain ⟨e', he', hrest⟩ := h.live t ht hc id' hw
    have hne : id' ≠ id := by
      rintro rfl
      rw [hid] at he'
      cases he'
    refine ⟨e', ?_, hrest⟩
    change (d.deskmap.insert id e).lookup id' = some e'
    rw [lookup_insert_eq, if_neg hne]
    exact he'

theorem lookup_none_of_notMem {id : ℕ} (hid : id ∉ places d l) : d.deskmap.lookup id = none := by
  cases he : d.deskmap.lookup id with
  | none => rfl
  | some e => exact absurd (Or.inl he) (not_keeps_of_notMem hid e)

theorem count_seat (d : Data) (h h' : Ref) (id id' : ℕ) :
    ((d.seat h id).homes h').actives.count id' =
      (d.homes h').actives.count id' + if h' = h ∧ id' = id then 1 else 0 := by
  unfold Data.seat
  by_cases hh : h' = h
  · subst hh
    by_cases hid : id' = id
    · subst hid
      simp
    · simp [hid, Ne.symm hid]
  · simp [hh]

theorem game_seat (d : Data) (h h' : Ref) (id : ℕ) :
    ((d.seat h id).homes h').game = (d.homes h').game := by
  unfold Data.seat
  by_cases hh : h' = h
  · subst hh
    simp
  · simp [Function.update_of_ne hh]

/-- **A desk gets a home** in a service with room for it. -/
theorem Fits.seat (h : Fits d l) {id : ℕ} {e : Desk} {hs : List Ref} (hid : id ∉ places d l)
    (hout : ∀ h, (d.homes h).actives.count id = 0) (hgame : d.games.lookup e.info.game = some hs)
    (hhome : e.home ∈ hs) (hlen : (d.homes e.home).actives.length < d.load) :
    Fits ((d.seat e.home id).enter id e) l := by
  obtain ⟨hnodup, hhs⟩ := h.served.games e.info.game hs hgame
  obtain ⟨hlt, hg⟩ := hhs e.home hhome
  refine ⟨⟨?_, h.numbers.restoring⟩, ⟨?_, ?_, ?_, ?_⟩, ⟨?_, ?_, ?_⟩, ?_⟩
  · exact (places_enter (d := d.seat e.home id) hid e).nodup_iff.2
      (List.nodup_cons.2 ⟨hid, h.numbers.nodup⟩)
  · -- free numbers are other numbers
    intro id' hfree h'
    have hne : id' ≠ id := by
      rintro rfl
      rcases hfree with hb | ⟨pc, hpc, hs⟩
      · exact hid (List.mem_append_left _ hb)
      · have hh : pc.holds? = some id' := by simp [Pc.holds?, hs]
        exact hid (List.mem_append_right _ (List.mem_append_right _
          (List.mem_filterMap.2 ⟨pc, hpc, hh⟩)))
    change ((d.seat e.home id).homes h').actives.count id' = 0
    rw [count_seat, if_neg (fun hc => hne hc.2)]
    exact h.housed.out id' hfree h'
  · intro id' e' hk
    rcases keeps_enter hk with ⟨rfl, rfl⟩ | hk
    · refine ⟨?_, fun h' hne => ?_⟩
      · change ((d.seat e'.home id').homes e'.home).actives.count id' = 1
        rw [count_seat, hout, if_pos ⟨rfl, rfl⟩]
      · change ((d.seat e'.home id').homes h').actives.count id' = 0
        rw [count_seat, hout, if_neg (fun hc => hne hc.1)]
    · have hne : id' ≠ id := by
        rintro rfl
        exact not_keeps_of_notMem hid e' hk
      obtain ⟨hcount, hothers⟩ := h.housed.listed id' e' hk
      refine ⟨?_, fun h' hne' => ?_⟩
      · change ((d.seat e.home id).homes e'.home).actives.count id' = 1
        rw [count_seat, if_neg (fun hc => hne hc.2)]
        exact hcount
      · change ((d.seat e.home id).homes h').actives.count id' = 0
        rw [count_seat, if_neg (fun hc => hne hc.2)]
        exact hothers h' hne'
  · intro id' e' hk
    change e'.home < d.nhome ∧ ((d.seat e.home id).homes e'.home).game = e'.info.game
    rw [game_seat]
    rcases keeps_enter hk with ⟨rfl, rfl⟩ | hk
    · exact ⟨hlt, hg⟩
    · exact h.housed.made id' e' hk
  · intro h'
    change ((d.seat e.home id).homes h').actives.length ≤ d.load
    unfold Data.seat
    by_cases hh : h' = e.home
    · subst hh
      simp
      omega
    · simp [Function.update_of_ne hh, h.housed.load h']
  · intro game hs' hgs
    obtain ⟨hn, hin⟩ := h.served.games game hs' hgs
    refine ⟨hn, fun h' hh' => ?_⟩
    change h' < d.nhome ∧ ((d.seat e.home id).homes h').game = game
    rw [game_seat]
    exact hin h' hh'
  · -- the service is listed, so it has not been ended
    intro h' hex
    obtain ⟨hlt', hempty, hno⟩ := h.served.exits h' hex
    refine ⟨hlt', ?_, hno⟩
    have hne : h' ≠ e.home := by
      rintro rfl
      exact hno _ _ hgame hhome
    change ((d.seat e.home id).homes h').actives = []
    unfold Data.seat
    simp [Function.update_of_ne hne, hempty]
  · intro t ht game h' hw
    change h' < d.nhome ∧ ((d.seat e.home id).homes h').game = game
    rw [game_seat]
    exact h.served.kills t ht game h' hw
  · have hw : Watched (d.seat e.home id) := ⟨h.watched.ids, h.watched.last, h.watched.live⟩
    exact hw.enter (lookup_none_of_notMem hid) e

theorem places_cons {pc : Pc} {id : ℕ} (h : pc.holds? = some id) :
    (places d (pc :: l)).Perm (id :: places d l) := by
  unfold places
  rw [List.filterMap_cons_some h, ← List.append_assoc]
  refine List.perm_middle.trans ?_
  rw [List.append_assoc]

/-- A coroutine takes a number to a new service. -/
theorem Fits.cons_starting (h : Fits d l) {id : ℕ} (hid : id ∉ places d l)
    (hout : ∀ h, (d.homes h).actives.count id = 0) (info : Info) (creater : ℕ) (pay : Pay) :
    Fits d (.newservice id info creater pay :: l) := by
  have hkeeps : ∀ id' e, Keeps d (.newservice id info creater pay :: l) id' e →
    Keeps d l id' e := by
    rintro id' e (he | ⟨pc', hpc, he⟩)
    · exact Or.inl he
    · rcases List.mem_cons.1 hpc with rfl | hpc
      · cases he
      · exact Or.inr ⟨pc', hpc, he⟩
  refine ⟨⟨?_, List.forall_mem_cons.2 ⟨rfl, h.numbers.restoring⟩⟩,
    ⟨?_, fun id' e he => h.housed.listed id' e (hkeeps id' e he),
      fun id' e he => h.housed.made id' e (hkeeps id' e he), h.housed.load⟩, h.served, h.watched⟩
  · exact (places_cons rfl).nodup_iff.2 (List.nodup_cons.2 ⟨hid, h.numbers.nodup⟩)
  · rintro id' (hid' | ⟨pc', hpc, hid'⟩)
    · exact h.housed.out id' (Or.inl hid')
    · rcases List.mem_cons.1 hpc with rfl | hpc
      · obtain rfl := Option.some_inj.1 hid'
        exact hout
      · exact h.housed.out id' (Or.inr ⟨pc', hpc, hid'⟩)

/-- **`lobby.assign`**. -/
theorem Fits.assign (h : Fits d l) (userid : ℕ) (info : Info) (inp : Inp) :
    Fits (assign d userid info inp).d ((assign d userid info inp).pcs ++ l) := by
  unfold Lobby.assign
  split
  · exact h
  · rename_i hs hgame
    split
    · exact h
    · rename_i id b hdraw
      obtain ⟨h', hid, hout⟩ := h.draw (randomId_perm hdraw)
      dsimp only
      split
      · exact h'
      · rename_i pay _
        split
        · rename_i home hfind
          have hmem := List.mem_of_find?_eq_some hfind
          have hlen : (d.homes home).actives.length < d.load := by
            simpa using List.find?_some hfind
          exact h'.seat (e := ⟨home, info, userid, pay, false⟩) hid hout hgame hmem hlen
        · exact h'.cons_starting hid hout info userid pay

/-- A service without desks joins the list of a game. -/
def Data.newHome (d : Data) (game : String) : Data :=
  { d with
    homes := Function.update d.homes d.nhome ⟨game, []⟩
    nhome := d.nhome + 1
    games := d.games.insert game ((d.games.lookup game).getD [] ++ [d.nhome]) }

theorem homes_newHome {h : Ref} (hlt : h < d.nhome) (game : String) :
    (d.newHome game).homes h = d.homes h :=
  Function.update_of_ne (Nat.ne_of_lt hlt) _ _

theorem count_newHome {id : ℕ} {h : Ref} (game : String) (hz : (d.homes h).actives.count id = 0) :
    ((d.newHome game).homes h).actives.count id = 0 := by
  unfold Data.newHome
  by_cases hh : h = d.nhome
  · subst hh
    simp
  · simpa [Function.update_of_ne hh] using hz

/-- The list of a game after a service has joined one. -/
theorem mem_newHome {game game' : String} {hs : List Ref}
    (h : (d.newHome game).games.lookup game' = some hs) :
    (game' = game ∧ hs = (d.games.lookup game).getD [] ++ [d.nhome]) ∨
      (game' ≠ game ∧ d.games.lookup game' = some hs) := by
  have h : (d.games.insert game ((d.games.lookup game).getD [] ++ [d.nhome])).lookup game'
      = some hs := h
  rw [lookup_insert_eq] at h
  split at h
  · exact Or.inl ⟨by assumption, (Option.some_inj.1 h).symm⟩
  · exact Or.inr ⟨by assumption, h⟩

/-- What is known of a list holds of the empty list as well. -/
theorem Served.games_getD (h : Served d) (game : String) :
    ((d.games.lookup game).getD []).Nodup ∧
      ∀ h' ∈ (d.games.lookup game).getD [], h' < d.nhome ∧ (d.homes h').game = game := by
  cases hl : d.games.lookup game with
  | none => exact ⟨List.nodup_nil, by simp⟩
  | some hs => exact h.games game hs hl

theorem Served.newHome (h : Served d) (game : String) : Served (d.newHome game) where
  games := by
    intro game' hs hgs
    change hs.Nodup ∧ ∀ h' ∈ hs, h' < d.nhome + 1 ∧ ((d.newHome game).homes h').game = game'
    rcases mem_newHome hgs with ⟨rfl, rfl⟩ | ⟨-, hgs⟩
    · obtain ⟨hn, hin⟩ := h.games_getD game'
      refine ⟨List.nodup_append.2 ⟨hn, List.nodup_singleton _, ?_⟩, ?_⟩
      · intro a ha b hb hab
        rw [List.mem_singleton] at hb
        exact Nat.ne_of_lt (hin a ha).1 (hab.trans hb)
      · intro h' hh'
        rcases List.mem_append.1 hh' with hh' | hh'
        · rw [homes_newHome (hin h' hh').1]
          exact ⟨Nat.lt_succ_of_lt (hin h' hh').1, (hin h' hh').2⟩
        · obtain rfl := List.mem_singleton.1 hh'
          exact ⟨Nat.lt_succ_self _, by simp [Data.newHome]⟩
    · obtain ⟨hn, hin⟩ := h.games game' hs hgs
      refine ⟨hn, fun h' hh' => ?_⟩
      rw [homes_newHome (hin h' hh').1]
      exact ⟨Nat.lt_succ_of_lt (hin h' hh').1, (hin h' hh').2⟩
  exits := by
    intro h' hex
    obtain ⟨hlt, hempty, hno⟩ := h.exits h' hex
    rw [homes_newHome hlt]
    refine ⟨Nat.lt_succ_of_lt hlt, hempty, fun game' hs hgs hin => ?_⟩
    rcases mem_newHome hgs with ⟨rfl, rfl⟩ | ⟨-, hgs⟩
    · rcases List.mem_append.1 hin with hin | hin
      · cases hl : d.games.lookup game' with
        | none => simp [hl] at hin
        | some hs => exact hno _ hs hl (by simpa [hl] using hin)
      · exact Nat.ne_of_lt hlt (List.mem_singleton.1 hin)
    · exact hno game' hs hgs hin
  kills := by
    intro t ht game' h' hw
    obtain ⟨hlt, hg⟩ := h.kills t ht game' h' hw
    rw [homes_newHome hlt]
    exact ⟨Nat.lt_succ_of_lt hlt, hg⟩

theorem Fits.newHome (h : Fits d l) (game : String) : Fits (d.newHome game) l where
  numbers := ⟨h.numbers.nodup, h.numbers.restoring⟩
  housed := by
    refine ⟨fun id hid h' => count_newHome game (h.housed.out id hid h'), ?_, ?_, ?_⟩
    · intro id e hk
      obtain ⟨hc, hothers⟩ := h.housed.listed id e hk
      refine ⟨?_, fun h' hne => count_newHome game (hothers h' hne)⟩
      rw [homes_newHome (h.housed.made id e hk).1]
      exact hc
    · intro id e hk
      obtain ⟨hlt, hg⟩ := h.housed.made id e hk
      rw [homes_newHome hlt]
      exact ⟨Nat.lt_succ_of_lt hlt, hg⟩
    · intro h'
      change ((d.newHome game).homes h').actives.length ≤ d.load
      unfold Data.newHome
      by_cases hh : h' = d.nhome
      · subst hh
        simp
      · simpa [Function.update_of_ne hh] using h.housed.load h'
  served := h.served.newHome game
  watched := ⟨h.watched.ids, h.watched.last, h.watched.live⟩

/-- **A new service** comes with its first desk. -/
theorem Fits.assigned {id : ℕ} {info : Info} {creater : ℕ} {pay : Pay} (hload : 1 ≤ d.load)
    (h : Fits d (.newservice id info creater pay :: l)) :
    Fits (assigned d id info creater pay).d l := by
  have heq : (Lobby.assigned d id info creater pay).d =
      ((d.newHome info.game).seat d.nhome id).enter id ⟨d.nhome, info, creater, pay, false⟩ := by
    simp [Lobby.assigned, Out.d, Data.newHome, Data.seat]
  obtain ⟨hid, -⟩ := List.nodup_cons.1
    ((places_cons (d := d) (l := l) rfl).nodup_iff.1 h.numbers.nodup)
  have hout := h.housed.out id (Or.inr ⟨_, List.mem_cons_self, rfl⟩)
  have hgame : (d.newHome info.game).games.lookup info.game =
      some ((d.games.lookup info.game).getD [] ++ [d.nhome]) := AList.lookup_insert _
  rw [heq]
  refine (h.tail.newHome info.game).seat (e := ⟨d.nhome, info, creater, pay, false⟩) hid
    (fun h' => count_newHome info.game (hout h')) hgame
    (List.mem_append_right _ List.mem_cons_self) ?_
  change ((d.newHome info.game).homes d.nhome).actives.length < d.load
  simp only [Data.newHome, Function.update_self, List.length_nil]
  omega

/-! ### Freeing -/

/-- The tables without the timers. -/
theorem Fits.timers (h : Fits d l) {ts : List Timer} {n : ℕ} {m : Table ℕ ℕ}
    (hkills : ∀ t ∈ ts, ∀ game h, t.work = .kill game h → h < d.nhome ∧ (d.homes h).game = game)
    (hw : Watched { d with timers := ts, ntimer := n, monitor := m }) :
    Fits { d with timers := ts, ntimer := n, monitor := m } l where
  numbers := ⟨h.numbers.nodup, h.numbers.restoring⟩
  housed := ⟨h.housed.out, h.housed.listed, h.housed.made, h.housed.load⟩
  served := ⟨h.served.games, h.served.exits, hkills⟩
  watched := hw

/-- A marked timer is an old timer. -/
theorem mem_removeTimer {tid : ℕ} {t : Timer} (h : t ∈ (d.removeTimer tid).timers) :
    ∃ t' ∈ d.timers, t.id = t'.id ∧ t.work = t'.work ∧
      (t.cancel = false → t'.cancel = false ∧ t.id ≠ tid) := by
  obtain ⟨t', ht', rfl⟩ := List.mem_map.1 h
  refine ⟨t', ht', ?_⟩
  split
  · exact ⟨rfl, rfl, fun hc => by cases hc⟩
  · rename_i hne
    exact ⟨rfl, rfl, fun hc => ⟨hc, hne⟩⟩

theorem Fits.removeTimer (h : Fits d l) (tid : ℕ) : Fits (d.removeTimer tid) l := by
  refine h.timers (m := d.monitor) (n := d.ntimer) ?_ ⟨?_, h.watched.last, ?_⟩
  · intro t ht game h' hw
    obtain ⟨t', ht', -, hwork, -⟩ := mem_removeTimer ht
    exact h.served.kills t' ht' game h' (hwork ▸ hw)
  · intro t ht
    obtain ⟨t', ht', hid, -, -⟩ := mem_removeTimer ht
    rw [hid]
    exact h.watched.ids t' ht'
  · intro t ht hc id hw
    obtain ⟨t', ht', hid, hwork, hcancel⟩ := mem_removeTimer ht
    rw [hid]
    exact h.watched.live t' ht' (hcancel hc).1 id (hwork ▸ hw)

/-- The tables in which `lobby.free` looks for the desk: its timer has been cancelled. -/
def Data.unwatched (d : Data) (deskid : ℕ) : Data :=
  match d.monitor.lookup deskid with
  | none => d
  | some tid => d.removeTimer tid

theorem Fits.unwatched (h : Fits d l) (deskid : ℕ) : Fits (d.unwatched deskid) l := by
  unfold Data.unwatched
  split
  · exact h
  · exact h.removeTimer _

/-- No timer watches the desk any more. -/
theorem unwatched_live (h : Watched d) (deskid : ℕ) :
    ∀ t ∈ (d.unwatched deskid).timers, t.cancel = false → t.work ≠ .monitor deskid := by
  unfold Data.unwatched
  split
  · rename_i hnone
    intro t ht hc hw
    obtain ⟨e, -, -, hm⟩ := h.live t ht hc deskid hw
    rw [hnone] at hm
    cases hm
  · rename_i tid hsome
    intro t ht hc hw
    obtain ⟨t', ht', hid, hwork, hcancel⟩ := mem_removeTimer ht
    obtain ⟨hc', hne⟩ := hcancel hc
    obtain ⟨e, -, -, hm⟩ := h.live t' ht' hc' deskid (hwork ▸ hw)
    rw [hsome, Option.some_inj] at hm
    exact hne (hid.trans hm.symm)

theorem deskmap_unwatched (d : Data) (deskid : ℕ) : (d.unwatched deskid).deskmap = d.deskmap := by
  unfold Data.unwatched
  split <;> rfl

/-- Taking a number out of `deskmap`. -/
theorem places_erase {id : ℕ} {e : Desk} (he : d.deskmap.lookup id = some e) {pc : Pc}
    (hpc : pc.holds? = some id) :
    (places { d with deskmap := d.deskmap.erase id } (pc :: l)).Perm (places d l) := by
  refine (places_cons hpc).trans ?_
  have hkey : id ∈ d.deskmap.keys := lookup_isSome_iff_mem_keys.1 (by rw [he]; rfl)
  have hkeys : d.deskmap.keys.Perm (id :: (d.deskmap.erase id).keys) := by
    rw [AList.keys_erase]
    exact List.perm_cons_erase hkey
  unfold places
  refine List.Perm.trans List.perm_middle.symm (List.Perm.append_left d.buffer ?_)
  exact (hkeys.append_right _).symm

/-- **`lobby.free`**: the desk goes from `deskmap` to the coroutine that frees it. -/
theorem Fits.leave (h : Fits d l) {id : ℕ} {e : Desk} (he : d.deskmap.lookup id = some e)
    (hlive : ∀ t ∈ d.timers, t.cancel = false → t.work ≠ .monitor id) :
    Fits { d with deskmap := d.deskmap.erase id } (.removeMydesk id e :: l) := by
  have hlook : ∀ id' e', (d.deskmap.erase id).lookup id' = some e' →
    d.deskmap.lookup id' = some e' := by
    intro id' e' he'
    rw [lookup_erase_eq] at he'
    split at he'
    · cases he'
    · exact he'
  have hkeeps : ∀ id' e',
    Keeps { d with deskmap := d.deskmap.erase id } (.removeMydesk id e :: l) id' e' →
      Keeps d l id' e' := by
    rintro id' e' (he' | ⟨pc, hpc, he'⟩)
    · exact Or.inl (hlook id' e' he')
    · rcases List.mem_cons.1 hpc with rfl | hpc
      · obtain ⟨rfl, rfl⟩ := Prod.mk.inj (Option.some_inj.1 he')
        exact Or.inl he
      · exact Or.inr ⟨pc, hpc, he'⟩
  refine ⟨⟨?_, List.forall_mem_cons.2 ⟨rfl, h.numbers.restoring⟩⟩,
    ⟨?_, fun id' e' hk => h.housed.listed id' e' (hkeeps id' e' hk),
      fun id' e' hk => h.housed.made id' e' (hkeeps id' e' hk), h.housed.load⟩,
    ⟨h.served.games, h.served.exits, h.served.kills⟩, ⟨h.watched.ids, h.watched.last, ?_⟩⟩
  · exact (places_erase he rfl).nodup_iff.2 h.numbers.nodup
  · rintro id' (hid | ⟨pc, hpc, hs⟩)
    · exact h.housed.out id' (Or.inl hid)
    · rcases List.mem_cons.1 hpc with rfl | hpc
      · cases hs
      · exact h.housed.out id' (Or.inr ⟨pc, hpc, hs⟩)
  · intro t ht hc id' hw
    obtain ⟨e', he', hrest⟩ := h.watched.live t ht hc id' hw
    have hne : id' ≠ id := by
      rintro rfl
      exact hlive t ht hc hw
    refine ⟨e', ?_, hrest⟩
    change (d.deskmap.erase id).lookup id' = some e'
    rw [lookup_erase_eq, if_neg hne]
    exact he'

/-- `lobby.free` cancels the timer first. -/
theorem free_eq (d : Data) (deskid : ℕ) :
    Lobby.free d deskid = ((d.unwatched deskid).deskmap.lookup deskid).elim
    (.ret (d.unwatched deskid) .nil)
      fun desk =>
        .wait { d.unwatched deskid with deskmap := (d.unwatched deskid).deskmap.erase deskid }
        (.removeMydesk deskid desk) := by
  unfold Lobby.free Data.unwatched
  cases d.monitor.lookup deskid with
  | none =>
      dsimp only
      cases d.deskmap.lookup deskid <;> rfl
  | some tid =>
      dsimp only
      cases (d.removeTimer tid).deskmap.lookup deskid <;> rfl

theorem Fits.free (h : Fits d l) (deskid : ℕ) :
    Fits (free d deskid).d ((free d deskid).pcs ++ l) := by
  rw [free_eq]
  cases he : (d.unwatched deskid).deskmap.lookup deskid with
  | none => exact h.unwatched deskid
  | some e => exact (h.unwatched deskid).leave he (unwatched_live h.watched deskid)

/-- A number is taken off the list of a service. -/
def Data.strike (d : Data) (home : Ref) (id : ℕ) : Data :=
  { d with
    homes := Function.update d.homes home
      { d.homes home with actives := (d.homes home).actives.erase id }
    buffer := d.buffer ++ [id] }

theorem count_strike (d : Data) (h h' : Ref) {id id' : ℕ} (hne : id' ≠ id) :
    ((d.strike h id).homes h').actives.count id' = (d.homes h').actives.count id' := by
  unfold Data.strike
  by_cases hh : h' = h
  · subst hh
    simp [List.count_erase_of_ne hne]
  · simp [Function.update_of_ne hh]

theorem count_strike_self {h : Ref} {id : ℕ} (hl : Listed d.homes id h) (h' : Ref) :
    ((d.strike h id).homes h').actives.count id = 0 := by
  unfold Data.strike
  by_cases hh : h' = h
  · subst hh
    simp [List.count_erase_self, hl.1]
  · simpa [Function.update_of_ne hh] using hl.2 h' hh

theorem game_strike (d : Data) (h h' : Ref) (id : ℕ) :
    ((d.strike h id).homes h').game = (d.homes h').game := by
  unfold Data.strike
  by_cases hh : h' = h
  · subst hh
    simp
  · simp [Function.update_of_ne hh]

theorem length_strike (d : Data) (h h' : Ref) (id : ℕ) :
    ((d.strike h id).homes h').actives.length ≤ (d.homes h').actives.length := by
  unfold Data.strike
  by_cases hh : h' = h
  · subst hh
    simp only [Function.update_self]
    exact List.length_erase_le
  · simp [Function.update_of_ne hh]

/-- **The number goes back into the buffer**, and nobody lists it any more. -/
theorem Fits.strike {id : ℕ} {e : Desk} (h : Fits d (.removeMydesk id e :: l)) :
    Fits (d.strike e.home id) l := by
  have hlisted := h.housed.listed id e (Or.inr ⟨_, List.mem_cons_self, rfl⟩)
  have hplaces : (places (d.strike e.home id) l).Perm (places d (.removeMydesk id e :: l)) := by
    refine List.Perm.trans ?_ (places_cons rfl).symm
    unfold places Data.strike
    dsimp only
    rw [List.append_assoc]
    exact List.perm_middle
  have hnodup := hplaces.nodup_iff.2 h.numbers.nodup
  obtain ⟨hid, -⟩ := List.nodup_cons.1 ((places_cons rfl).nodup_iff.1 h.numbers.nodup)
  have ht := h.tail
  refine ⟨⟨hnodup, ht.numbers.restoring⟩, ⟨?_, ?_, ?_, ?_⟩, ⟨?_, ?_, ?_⟩,
    ⟨ht.watched.ids, ht.watched.last, ht.watched.live⟩⟩
  · intro id' hfree h'
    by_cases hne : id' = id
    · subst hne
      exact count_strike_self hlisted h'
    · rw [count_strike d _ _ hne]
      refine ht.housed.out id' (hfree.imp_left fun hb => ?_) h'
      rcases List.mem_append.1 hb with hb | hb
      · exact hb
      · exact absurd (List.mem_singleton.1 hb) hne
  · intro id' e' hk
    have hk : Keeps d l id' e' := hk
    have hne : id' ≠ id := by
      rintro rfl
      exact not_keeps_of_notMem hid e' hk
    obtain ⟨hc, hothers⟩ := ht.housed.listed id' e' hk
    refine ⟨?_, fun h' hne' => ?_⟩
    · rw [count_strike d _ _ hne]
      exact hc
    · rw [count_strike d _ _ hne]
      exact hothers h' hne'
  · intro id' e' hk
    rw [game_strike]
    exact ht.housed.made id' e' hk
  · exact fun h' => (length_strike d e.home h' id).trans (ht.housed.load h')
  · intro game hs hgs
    obtain ⟨hn, hin⟩ := ht.served.games game hs hgs
    refine ⟨hn, fun h' hh' => ?_⟩
    rw [game_strike]
    exact hin h' hh'
  · intro h' hex
    obtain ⟨hlt, hempty, hno⟩ := ht.served.exits h' hex
    refine ⟨hlt, ?_, hno⟩
    have hle := length_strike d e.home h' id
    rw [hempty] at hle
    exact List.length_eq_zero_iff.1 (Nat.le_zero.1 hle)
  · intro t htm game h' hw
    rw [game_strike]
    exact ht.served.kills t htm game h' hw

/-- A timer joins the queue. -/
theorem Fits.addTimer (h : Fits d l) {work : Work}
    (hkill : ∀ game h, work = .kill game h → h < d.nhome ∧ (d.homes h).game = game)
    (hlive : ∀ id, work = .monitor id → ∃ e, d.deskmap.lookup id = some e ∧ e.monitored = true ∧
      d.monitor.lookup id = some d.ntimer)
    (hlast : ∀ id tid, d.monitor.lookup id = some tid → tid < d.ntimer + 1) :
    Fits (d.addTimer work) l := by
  refine h.timers (m := d.monitor) ?_ ⟨?_, hlast, ?_⟩
  · intro t ht game h' hw
    rcases List.mem_append.1 ht with ht | ht
    · exact h.served.kills t ht game h' hw
    · obtain rfl := List.mem_singleton.1 ht
      exact hkill game h' hw
  · intro t ht
    rcases List.mem_append.1 ht with ht | ht
    · exact Nat.lt_succ_of_lt (h.watched.ids t ht)
    · obtain rfl := List.mem_singleton.1 ht
      exact Nat.lt_succ_self _
  · intro t ht hc id hw
    rcases List.mem_append.1 ht with ht | ht
    · exact h.watched.live t ht hc id hw
    · obtain rfl := List.mem_singleton.1 ht
      exact hlive id hw

theorem Fits.freed {id : ℕ} {e : Desk} (h : Fits d (.removeMydesk id e :: l)) :
    Fits (freed d id e).d l := by
  have hkeeps : Keeps d (.removeMydesk id e :: l) id e := Or.inr ⟨_, List.mem_cons_self, rfl⟩
  have hmem : id ∈ (d.homes e.home).actives := by
    refine List.count_pos_iff.1 ?_
    rw [(h.housed.listed id e hkeeps).1]
    exact Nat.one_pos
  obtain ⟨hlt, hgame⟩ := h.housed.made id e hkeeps
  have heq : Lobby.freed d id e = .ret (addKillQueue (d.strike e.home id) e) .nil := by
    simp only [Lobby.freed, if_pos hmem]
    rfl
  rw [heq]
  change Fits (addKillQueue (d.strike e.home id) e) l
  unfold addKillQueue
  split
  · refine h.strike.addTimer ?_ (fun _ hw => by cases hw) ?_
    · intro game h' hw
      cases hw
      rw [game_strike]
      exact ⟨hlt, hgame⟩
    · exact fun id' tid hm => Nat.lt_succ_of_lt (h.watched.last id' tid hm)
  · exact h.strike

/-! ### The timers -/

/-- A desk that no timer watches is marked. -/
theorem Fits.mark (h : Fits d l) {deskid : ℕ} {e : Desk} (he : d.deskmap.lookup deskid = some e)
    (hlive : ∀ t ∈ d.timers, t.cancel = false → t.work ≠ .monitor deskid) :
    Fits (d.enter deskid { e with monitored := true }) l := by
  have hkeeps : ∀ id' e', Keeps (d.enter deskid { e with monitored := true }) l id' e' →
      ∃ e₀, Keeps d l id' e₀ ∧ e₀.home = e'.home ∧ e₀.info = e'.info := by
    intro id' e' hk
    rcases keeps_enter hk with ⟨rfl, rfl⟩ | hk
    · exact ⟨e, Or.inl he, rfl, rfl⟩
    · exact ⟨e', hk, rfl, rfl⟩
  refine ⟨⟨?_, h.numbers.restoring⟩, ⟨h.housed.out, ?_, ?_, h.housed.load⟩,
    ⟨h.served.games, h.served.exits, h.served.kills⟩, ⟨h.watched.ids, h.watched.last, ?_⟩⟩
  · have hkey : deskid ∈ d.deskmap.keys := lookup_isSome_iff_mem_keys.1 (by rw [he]; rfl)
    have hkeys : ((d.deskmap.insert deskid { e with monitored := true }).keys).Perm
        d.deskmap.keys := by
      rw [AList.keys_insert]
      exact (List.perm_cons_erase hkey).symm
    have hp : (places (d.enter deskid { e with monitored := true }) l).Perm (places d l) :=
      (hkeys.append_right _).append_left _
    exact hp.nodup_iff.2 h.numbers.nodup
  · intro id' e' hk
    obtain ⟨e₀, hk₀, hhome, -⟩ := hkeeps id' e' hk
    rw [← hhome]
    exact h.housed.listed id' e₀ hk₀
  · intro id' e' hk
    obtain ⟨e₀, hk₀, hhome, hinfo⟩ := hkeeps id' e' hk
    rw [← hhome, ← hinfo]
    exact h.housed.made id' e₀ hk₀
  · intro t ht hc id hw
    have hne : id ≠ deskid := by
      rintro rfl
      exact hlive t ht hc hw
    obtain ⟨e', he', hrest⟩ := h.watched.live t ht hc id hw
    refine ⟨e', ?_, hrest⟩
    change (d.deskmap.insert deskid { e with monitored := true }).lookup id = some e'
    rw [lookup_insert_eq, if_neg hne]
    exact he'

/-- **`lobby.monitor_desk`**, for the first time since the assignment. -/
theorem Fits.monitorDesk (h : Fits d l) {deskid : ℕ}
    (honce : ∀ e, d.deskmap.lookup deskid = some e → e.monitored = false) :
    Fits (monitorDesk d deskid).d l := by
  unfold Lobby.monitorDesk
  split
  · exact h
  · rename_i e he
    have hnot : ∀ t ∈ d.timers, t.cancel = false → t.work ≠ .monitor deskid := by
      intro t ht hc hw
      obtain ⟨e', he', hm, -⟩ := h.watched.live t ht hc deskid hw
      rw [honce e' he'] at hm
      cases hm
    have hmark := h.mark he hnot
    refine hmark.timers (n := d.ntimer + 1) (m := d.monitor.insert deskid d.ntimer) ?_ ⟨?_, ?_, ?_⟩
    · intro t ht game h' hw
      rcases List.mem_append.1 ht with ht | ht
      · exact h.served.kills t ht game h' hw
      · obtain rfl := List.mem_singleton.1 ht
        cases hw
    · intro t ht
      rcases List.mem_append.1 ht with ht | ht
      · exact Nat.lt_succ_of_lt (h.watched.ids t ht)
      · obtain rfl := List.mem_singleton.1 ht
        exact Nat.lt_succ_self _
    · intro id tid hm
      have hm : (d.monitor.insert deskid d.ntimer).lookup id = some tid := hm
      rw [lookup_insert_eq] at hm
      split at hm
      · obtain rfl := Option.some_inj.1 hm
        exact Nat.lt_succ_self _
      · exact Nat.lt_succ_of_lt (h.watched.last id tid hm)
    · intro t ht hc id hw
      rcases List.mem_append.1 ht with ht | ht
      · -- an older timer watches another desk
        have hne : id ≠ deskid := by
          rintro rfl
          exact hnot t ht hc hw
        obtain ⟨e', he', hm, hlast⟩ := hmark.watched.live t ht hc id hw
        refine ⟨e', he', hm, ?_⟩
        change (d.monitor.insert deskid d.ntimer).lookup id = some t.id
        rw [lookup_insert_eq, if_neg hne]
        exact hlast
      · obtain rfl := List.mem_singleton.1 ht
        cases hw
        exact ⟨{ e with monitored := true }, AList.lookup_insert _, rfl, AList.lookup_insert _⟩

/-- A timer leaves the queue. -/
theorem Fits.eraseTimer (h : Fits d l) (k : ℕ) :
    Fits { d with timers := d.timers.eraseIdx k } l := by
  have hmem : ∀ t ∈ d.timers.eraseIdx k, t ∈ d.timers := fun t ht => List.mem_of_mem_eraseIdx ht
  exact h.timers (m := d.monitor) (n := d.ntimer) (fun t ht => h.served.kills t (hmem t ht))
    ⟨fun t ht => h.watched.ids t (hmem t ht), h.watched.last,
      fun t ht => h.watched.live t (hmem t ht)⟩

/-- **A service without desks is ended**, and it is in no list any more. -/
theorem Fits.killWork (h : Fits d l) {game : String} {home : Ref}
    (hmade : home < d.nhome ∧ (d.homes home).game = game) :
    Fits (killWork d game home).d ((killWork d game home).pcs ++ l) := by
  unfold Lobby.killWork
  split
  swap
  · exact h
  rename_i hkill
  obtain ⟨hnodup, hin⟩ := h.served.games_getD game
  have hlook : ∀ game' hs,
    (d.games.insert game (((d.games.lookup game).getD []).erase home)).lookup game'
      = some hs → (game' = game ∧ hs = ((d.games.lookup game).getD []).erase home) ∨
        (game' ≠ game ∧ d.games.lookup game' = some hs) := by
    intro game' hs hl
    rw [lookup_insert_eq] at hl
    split at hl
    · exact Or.inl ⟨by assumption, (Option.some_inj.1 hl).symm⟩
    · exact Or.inr ⟨by assumption, hl⟩
  have hstart : (Pc.exit home).starting? = none := rfl
  refine Fits.cons_idle ?_ hstart rfl rfl
  refine ⟨⟨h.numbers.nodup, h.numbers.restoring⟩,
    ⟨h.housed.out, h.housed.listed, h.housed.made, h.housed.load⟩, ⟨?_, ?_, h.served.kills⟩,
    ⟨h.watched.ids, h.watched.last, h.watched.live⟩⟩
  · intro game' hs hl
    rcases hlook game' hs hl with ⟨rfl, rfl⟩ | ⟨-, hl⟩
    · exact ⟨hnodup.erase _, fun h' hh' => hin h' (List.mem_of_mem_erase hh')⟩
    · exact h.served.games game' hs hl
  · intro h' hex
    rcases List.mem_cons.1 hex with rfl | hex
    · refine ⟨hmade.1, hkill.1, fun game' hs hl hmem => ?_⟩
      rcases hlook game' hs hl with ⟨rfl, rfl⟩ | ⟨hne, hl⟩
      · exact (List.Nodup.not_mem_erase hnodup) hmem
      · -- a service is in the list of its own game only
        have hgame := ((h.served.games game' hs hl).2 h' hmem).2
        exact hne (hgame.symm.trans hmade.2)
    · obtain ⟨hlt, hempty, hno⟩ := h.served.exits h' hex
      refine ⟨hlt, hempty, fun game' hs hl hmem => ?_⟩
      rcases hlook game' hs hl with ⟨rfl, rfl⟩ | ⟨-, hl⟩
      · have hmem := List.mem_of_mem_erase hmem
        cases hg : d.games.lookup game' with
        | none => simp [hg] at hmem
        | some hs => exact hno game' hs hg (by simpa [hg] using hmem)
      · exact hno game' hs hl hmem

/-- **The turn of a timer has come**: a desk that is watched is there. -/
theorem Fits.tick (h : Fits d l) (k : ℕ) : Fits (tick d k).d ((tick d k).pcs ++ l) := by
  unfold Lobby.tick
  split
  · exact h
  · rename_i t ht
    have hmem : t ∈ d.timers := List.mem_of_getElem? ht
    have h' := h.eraseTimer k
    dsimp only
    split
    · exact h'
    · rename_i hc
      cases hw : t.work with
      | monitor deskid =>
          obtain ⟨e, he, -⟩ := h.watched.live t hmem (by simpa using hc) deskid hw
          have heq : deskMonitorWork { d with timers := d.timers.eraseIdx k } deskid =
              .wait { d with timers := d.timers.eraseIdx k } (.forceDismiss deskid e.home) := by
            simp only [deskMonitorWork, he]
          dsimp only
          rw [heq]
          exact h'.cons_idle rfl rfl rfl
      | kill game home => exact h'.killWork (h.served.kills t hmem game home hw)

/-! ### Runs -/

theorem Fits.openGame (h : Fits d l) (name : String) : Fits (openGame d name).d l := by
  unfold Lobby.openGame
  split
  · exact h
  · have hlook : ∀ game hs, (d.games.insert name []).lookup game = some hs →
        hs = [] ∨ d.games.lookup game = some hs := by
      intro game hs hl
      rw [lookup_insert_eq] at hl
      split at hl
      · exact Or.inl (Option.some_inj.1 hl).symm
      · exact Or.inr hl
    refine ⟨⟨h.numbers.nodup, h.numbers.restoring⟩,
      ⟨h.housed.out, h.housed.listed, h.housed.made, h.housed.load⟩, ⟨?_, ?_, h.served.kills⟩,
      ⟨h.watched.ids, h.watched.last, h.watched.live⟩⟩
    · intro game hs hl
      rcases hlook game hs hl with rfl | hl
      · exact ⟨List.nodup_nil, by simp⟩
      · exact h.served.games game hs hl
    · intro h' hex
      obtain ⟨hlt, hempty, hno⟩ := h.served.exits h' hex
      refine ⟨hlt, hempty, fun game hs hl hmem => ?_⟩
      rcases hlook game hs hl with rfl | hl
      · cases hmem
      · exact hno game hs hl hmem

theorem pcs_openGame (d : Data) (name : String) : (openGame d name).pcs = [] := by
  unfold openGame
  split <;> rfl

theorem pcs_monitorDesk (d : Data) (deskid : ℕ) : (monitorDesk d deskid).pcs = [] := by
  unfold monitorDesk
  split <;> rfl

/-- **The first segment of a request.** -/
theorem Fits.direct {s : Pool Data Pc} {r : Req} {inp : Inp} (h : Fits s.shared s.cos)
    (hc : monitorOnce s (.call r inp) = true) :
    Fits (direct s.shared inp r).d ((direct s.shared inp r).pcs ++ s.cos) := by
  cases r with
  | openGame name =>
      change Fits (Lobby.openGame s.shared name).d ((Lobby.openGame s.shared name).pcs ++ s.cos)
      rw [pcs_openGame]
      exact h.openGame name
  | assign userid info => exact h.assign userid info inp
  | free deskid => exact h.free deskid
  | monitorDesk deskid =>
      change Fits (Lobby.monitorDesk s.shared deskid).d
        ((Lobby.monitorDesk s.shared deskid).pcs ++ s.cos)
      rw [pcs_monitorDesk]
      refine h.monitorDesk fun e he => ?_
      simpa [monitorOnce, he] using hc
  | tick k => exact h.tick k

/-- **The segments after a yield.** -/
theorem Fits.resume {pc : Pc} (hload : 1 ≤ d.load) (h : Fits d (pc :: l)) (inp : Inp) :
    Fits (resume d inp pc).d ((resume d inp pc).pcs ++ l) := by
  unfold Lobby.resume
  split
  · exact h.tail
  · cases pc with
    | newservice deskid info creater pay => exact h.assigned hload
    | removeMydesk deskid desk => exact h.freed
    | forceDismiss deskid home =>
        dsimp only
        split
        · exact h.tail.free deskid
        · exact h.tail
    | freeDesk deskid =>
        have hno := h.numbers.restoring _ List.mem_cons_self
        cases hno
    | exit home => exact h.tail

theorem load_direct (d : Data) (inp : Inp) (r : Req) : (direct d inp r).d.load = d.load := by
  have free : ∀ deskid, (free d deskid).d.load = d.load := by
    intro deskid
    have hun : (d.unwatched deskid).load = d.load := by
      unfold Data.unwatched
      split <;> rfl
    unfold Lobby.free
    dsimp only
    split
    · exact hun
    · exact hun
  cases r with
  | openGame name =>
      unfold direct openGame
      dsimp only
      split <;> rfl
  | assign userid info =>
      unfold direct assign
      dsimp only
      split
      · rfl
      · split
        · rfl
        · split
          · rfl
          · split <;> rfl
  | free deskid => exact free deskid
  | monitorDesk deskid =>
      unfold direct monitorDesk
      dsimp only
      split <;> rfl
  | tick k =>
      unfold direct tick deskMonitorWork killWork
      dsimp only
      split
      · rfl
      · split
        · rfl
        · split
          · split <;> rfl
          · split <;> rfl

theorem load_resume (d : Data) (inp : Inp) (pc : Pc) : (resume d inp pc).d.load = d.load := by
  unfold resume
  split
  · rfl
  · cases pc with
    | newservice deskid info creater pay => rfl
    | removeMydesk deskid desk =>
        unfold freed addKillQueue
        dsimp only [Out.d]
        split <;> split <;> rfl
    | forceDismiss deskid home =>
        dsimp only
        split
        · exact load_direct d inp (.free deskid)
        · rfl
    | freeDesk deskid => rfl
    | exit home => rfl

/-- The lobby after its start: the numbers from `lo` on, of which some are those of active desks. -/
def started (lo n load : ℕ) (roompara : Bool → ℕ → Option ℤ) (active : ℕ → Bool) : Pool Data Pc :=
  ⟨{ load := load, roompara := roompara, buffer := initDeskidBuffer active lo n [] }, []⟩

theorem fits_started (lo n load : ℕ) (roompara : Bool → ℕ → Option ℤ) (active : ℕ → Bool) :
    Fits (started lo n load roompara active).shared (started lo n load roompara active).cos where
  numbers := by
    refine ⟨?_, List.forall_mem_nil _⟩
    change (initDeskidBuffer active lo n [] ++ []).Nodup
    rw [List.append_nil, initDeskidBuffer_eq]
    exact List.nodup_range'
  housed := by
    refine ⟨fun _ _ _ => rfl, ?_, ?_, fun _ => Nat.zero_le _⟩
    · rintro id e (he | ⟨pc, hpc, -⟩)
      · cases he
      · cases hpc
    · rintro id e (he | ⟨pc, hpc, -⟩)
      · cases he
      · cases hpc
  served := ⟨fun _ _ h => (by cases h), List.forall_mem_nil _, List.forall_mem_nil _⟩
  watched := ⟨List.forall_mem_nil _, fun _ _ h => (by cases h), List.forall_mem_nil _⟩

/-- **The allocation is in order in every run** in which `monitor_desk` is called at most once for
an assignment. -/
theorem allocation_of_monitorOnce {lo n load : ℕ} {roompara : Bool → ℕ → Option ℤ}
    {active : ℕ → Bool}
    (hload : 1 ≤ load) {s : Pool Data Pc}
    (h : service.Reach (fun s e => monitorOnce s e = true) (started lo n load roompara active) s) :
    Allocation s.shared := by
  have hinv : Fits s.shared s.cos ∧ s.shared.load = load := by
    refine Machine.Reach.inv (P := fun s => Fits s.shared s.cos ∧ s.shared.load = load)
      ⟨fits_started lo n load roompara active, rfl⟩ ?_ h
    rintro s e s' ⟨hf, hl⟩ hc he
    rcases Machine.exec_cases he with
      ⟨r, i, rfl, rfl⟩ | ⟨k, i, l, pc, r, out, rfl, hk, hcos, ho, rfl⟩
    · exact ⟨(hf.direct hc).perm List.perm_append_comm, (load_direct _ _ _).trans hl⟩
    · obtain rfl := Option.some_inj.1 ho
      rw [hcos] at hf
      have hf' := (hf.perm List.perm_middle).resume (by rw [hl]; exact hload) i
      refine ⟨hf'.perm ?_, (load_resume _ _ _).trans hl⟩
      exact (Machine.perm_front _ _ _).symm
  exact hinv.1.allocation

/-- Two desks in two services, of which one is freed and ended. -/
theorem allocation_twoServices :
    ∃ s, service.Reach (fun s e => monitorOnce s e = true)
        (started 100001 3 1 (fun _ _ => some 2) fun _ => false) s ∧
      s.shared.exited = [0] ∧ s.shared.buffer.length = 2 ∧ Allocation s.shared := by
  obtain ⟨s, hs, hp⟩ := Machine.exists_reach (M := service) (C := fun s e => monitorOnce s e = true)
    (i := started 100001 3 1 (fun _ _ => some 2) fun _ => false)
    [.call (.openGame "fish") {}, .call (.assign 1 { game := "fish" }) {}, .resume 0 {},
      .call (.assign 2 { game := "fish" }) {}, .resume 0 {}, .call (.monitorDesk 100001) {},
      -- the first desk is freed, and a minute later its service is ended
      .call (.free 100001) {}, .resume 0 {}, .call (.tick 1) {}]
    (p := fun s => decide (s.shared.exited = [0] ∧ s.shared.buffer.length = 2)) (by decide +kernel)
  obtain ⟨hexit, hbuffer⟩ := of_decide_eq_true hp
  exact ⟨s, hs, hexit, hbuffer, allocation_of_monitorOnce (by decide) hs⟩

end Halieutics.Lobby
