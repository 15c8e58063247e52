/-
**The lobby and the desk services.**

A desk number is handed out by the lobby, and the desk itself lives in a desk service, in the table
`data.desks` under its number.  `desk.create` asserts that the number is not in the table: a number
that is handed out again should have been dropped there.  But `free_desk` of a desk service calls
`lobby.free` first and drops the desk when that call has returned, and by then the number is back in
the buffer.

The machine of this module consists of the lobby, all desk services and the agents that create
desks.  A message in flight is a suspended coroutine, so every order in which messages can be
delivered is a schedule.  What the desk services do besides is left out: a desk may end at any time.

Main definitions:

* `Net`, `Thread`, `rooms` — the services, what can happen next in them, and the machine;
* `ReuseSafe` — a number in the buffer is in no table, and no `create` will find its number taken;
* `noneFreed` — the condition: no call of `lobby.free` by `free_desk` is served.

Main results:

* `reuseSafe_of_noneFreed` — **numbers are reused safely in every run** that meets the condition;
* `freed_number_is_in_use` — **a number is in the buffer before its desk is dropped**.
-/

import Halieutics.LobbyAlloc

set_option relaxedAutoImplicit false
set_option autoImplicit false

namespace Halieutics.Rooms

open Coroutine LuaTable
open Lobby (Desk)

/-- The lobby and the tables `data.desks` of the desk services: a number and the creator. -/
structure Net where
  lobby : Lobby.Data
  desks : Lobby.Ref → Table ℕ ℕ := fun _ => ∅

/-- Who has called `free_desk`. -/
inductive After where
  /-- `new_desk` or `cli:dismiss_apply`. -/
  | nil
  /-- `desk.force_dismiss`. -/
  | force
  deriving DecidableEq

/-- Who has called `lobby.free`. -/
inductive Caller where
  | agent
  | monitor
  | desk (home : Lobby.Ref) (deskid : ℕ) (after : After)
  deriving DecidableEq

/-- What can happen next: messages in flight, and coroutines that wait for something else. -/
inductive Thread where
  /-- A coroutine of the lobby that waits for a new service, a database or a service that exits. -/
  | lobby (pc : Lobby.Pc)
  /-- `cli:create` in `prop.use`, with the desk that `lobby.assign` returned. -/
  | charge (deskid : ℕ) (desk : Desk)
  /-- The message `create` on its way to a desk service. -/
  | createReq (deskid : ℕ) (desk : Desk)
  /-- `desk.create` in its calls of `gamedb`. -/
  | creating (deskid : ℕ) (desk : Desk)
  /-- The message `monitor_desk` on its way to the lobby. -/
  | monitorReq (deskid : ℕ) (home : Lobby.Ref)
  /-- The reply of `monitor_desk`; `false` is an error. -/
  | monitorReply (deskid : ℕ) (home : Lobby.Ref) (ok : Bool)
  /-- `new_desk` waiting for the game and its end. -/
  | newDesk (deskid : ℕ) (home : Lobby.Ref)
  /-- `free_desk` in its calls of agents and databases. -/
  | freeing (deskid : ℕ) (home : Lobby.Ref) (after : After)
  /-- The message `free` of `free_desk` on its way to the lobby. -/
  | freeReq (deskid : ℕ) (home : Lobby.Ref) (after : After)
  /-- The message `free` of `cli:create` on its way to the lobby. -/
  | agentFree (deskid : ℕ) (home : Lobby.Ref)
  /-- `lobby.free` in its call of `remove_mydesk`. -/
  | removeReq (deskid : ℕ) (desk : Desk) (caller : Caller)
  /-- The reply of `lobby.free` on its way to `free_desk`. -/
  | freeReply (deskid : ℕ) (home : Lobby.Ref) (after : After)
  /-- The message `force_dismiss` on its way to a desk service. -/
  | forceReq (deskid : ℕ) (home : Lobby.Ref)
  /-- The reply of `force_dismiss` on its way to the lobby. -/
  | forceReply (deskid : ℕ) (ret : ℤ)

/-- What the world supplies: the random number, whether a call raised, what `prop.use` returned, and
whether the game has begun. -/
structure Inp where
  roll : ℕ := 0
  raised : Bool := false
  num : ℤ := 0
  isstart : Bool := false

/-- The reply of `lobby.free`. -/
def reply : Caller → List Thread
  | .desk home deskid after => [.freeReply deskid home after]
  | _ => []

/-- What a segment of the lobby leaves behind. -/
def spread (caller : Caller) : Lobby.Out → List Thread
  | .ret _ (.desk deskid desk) => [.charge deskid desk]
  | .ret _ _ => reply caller
  | .wait _ (.removeMydesk deskid desk) => [.removeReq deskid desk caller]
  | .wait _ (.forceDismiss deskid home) => [.forceReq deskid home]
  | .wait _ pc => [.lobby pc]

/-- A segment of the lobby. -/
def Net.run (s : Net) (caller : Caller) (o : Lobby.Out) : Net × List Thread :=
  ({ s with lobby := o.d }, spread caller o)

/-- A desk service changes its table. -/
def Net.setDesks (s : Net) (home : Lobby.Ref) (t : Table ℕ ℕ) : Net :=
  { s with desks := Function.update s.desks home t }

/-- `cli:create` after `prop.use`. -/
def charged (s : Net) (inp : Inp) (deskid : ℕ) (desk : Desk) : Net × List Thread :=
  if inp.raised then (s, [])
  else
    let num := if 0 < desk.pay.total then inp.num else desk.pay.total
    if 0 ≤ num then (s, [.createReq deskid desk]) else (s, [.agentFree deskid desk.home])

/-- `desk.create` up to its calls of `gamedb`. -/
def create (s : Net) (deskid : ℕ) (desk : Desk) : Net × List Thread :=
  match (s.desks desk.home).lookup deskid with
  | some _ => (s, [])
  | none => (s, [.creating deskid desk])

/-- `desk.force_dismiss`. -/
def forceDismiss (s : Net) (inp : Inp) (deskid : ℕ) (home : Lobby.Ref) : Net × List Thread :=
  match (s.desks home).lookup deskid with
  | none => (s, [.forceReply deskid 3])
  | some _ =>
      if inp.isstart then (s, [.forceReply deskid 2]) else (s, [.freeing deskid home .force])

/-- One thing happens. -/
def resume (s : Net) (inp : Inp) : Thread → Net × List Thread
  | .lobby pc => s.run .monitor (Lobby.resume s.lobby { raised := inp.raised } pc)
  | .charge deskid desk => charged s inp deskid desk
  | .createReq deskid desk => create s deskid desk
  | .creating deskid desk =>
      if inp.raised then (s, [])
      else
        (s.setDesks desk.home ((s.desks desk.home).insert deskid desk.creater),
          [.monitorReq deskid desk.home])
  | .monitorReq deskid home =>
      match Lobby.monitorDesk s.lobby deskid with
      | .ret d .nil => ({ s with lobby := d }, [.monitorReply deskid home true])
      | o => ({ s with lobby := o.d }, [.monitorReply deskid home false])
  | .monitorReply deskid home ok => (s, if ok then [.newDesk deskid home] else [])
  | .newDesk deskid home => (s, [.freeing deskid home .nil])
  | .freeing deskid home after => (s, if inp.raised then [] else [.freeReq deskid home after])
  | .freeReq deskid home after => s.run (.desk home deskid after) (Lobby.free s.lobby deskid)
  | .agentFree deskid _ => s.run .agent (Lobby.free s.lobby deskid)
  | .removeReq deskid desk caller =>
      if inp.raised then (s, []) else s.run caller (Lobby.freed s.lobby deskid desk)
  | .freeReply deskid home after =>
      (s.setDesks home ((s.desks home).erase deskid),
        if after = .force then [.forceReply deskid 1] else [])
  | .forceReq deskid home => if inp.raised then (s, []) else forceDismiss s inp deskid home
  | .forceReply deskid ret =>
      if ret = 3 then s.run .monitor (Lobby.free s.lobby deskid) else (s, [])

/-- The requests: a user creates a desk or has it dismissed, the start of the lobby, and its
timers. -/
inductive Req where
  | openGame (name : String)
  | create (userid : ℕ) (info : Lobby.Info)
  | dismiss (deskid : ℕ) (home : Lobby.Ref)
  | tick (k : ℕ)

/-- The first segment of a request. -/
def direct (s : Net) (inp : Inp) : Req → Net × List Thread
  | .openGame name => s.run .monitor (Lobby.openGame s.lobby name)
  | .create userid info => s.run .monitor (Lobby.assign s.lobby userid info { roll := inp.roll })
  | .dismiss deskid home =>
      (s, if ((s.desks home).lookup deskid).isSome then [.freeing deskid home .nil] else [])
  | .tick k => s.run .monitor (Lobby.tick s.lobby k)

/-- **The lobby and the desk services as a machine.** -/
def rooms : Machine Net Thread Req Inp where
  call s r inp := direct s inp r
  resume s t inp := some (resume s inp t)

/-- **Numbers are reused safely**: a number in the buffer is in no table `data.desks`, and the
assertion of `desk.create` will not fire for a desk that has been paid for. -/
def ReuseSafe (s : Pool Net Thread) : Prop :=
  (∀ id ∈ s.shared.lobby.buffer, ∀ home, (s.shared.desks home).lookup id = none) ∧
  ∀ deskid desk, .createReq deskid desk ∈ s.cos → (s.shared.desks desk.home).lookup deskid = none

/-- **The condition**: no call of `lobby.free` by `free_desk` is served. -/
def noneFreed (s : Pool Net Thread) : Event Req Inp → Bool
  | .resume k _ =>
      match s.cos[k]? with
      | some (.freeReq _ _ _) => false
      | _ => true
  | _ => true

/-! ### The invariant -/

/-- The coroutine of the lobby that holds a number. -/
def Thread.lobby? : Thread → Option Lobby.Pc
  | .lobby pc => some pc
  | .removeReq deskid desk _ => some (.removeMydesk deskid desk)
  | _ => none

/-- A desk that has been assigned and not yet created, with its home. -/
def Thread.owns? : Thread → Option (ℕ × Lobby.Ref)
  | .charge deskid desk => some (deskid, desk.home)
  | .createReq deskid desk => some (deskid, desk.home)
  | .creating deskid desk => some (deskid, desk.home)
  | .agentFree deskid home => some (deskid, home)
  | _ => none

/-- A desk that is in the table of its home. -/
def Thread.finds? : Thread → Option (ℕ × Lobby.Ref)
  | .monitorReq deskid home => some (deskid, home)
  | .forceReq deskid home => some (deskid, home)
  | _ => none

/-- A desk that is about to be created. -/
def Thread.creates? : Thread → Option (ℕ × Desk)
  | .createReq deskid desk => some (deskid, desk)
  | _ => none

theorem Thread.eq_of_creates? {t : Thread} {deskid : ℕ} {desk : Desk}
    (h : t.creates? = some (deskid, desk)) :
    t = .createReq deskid desk := by
  cases t with
  | createReq => cases h; rfl
  | _ => cases h

/-- What occurs as long as no desk is freed. -/
def Thread.calm : Thread → Prop
  | .lobby pc => pc.leaving? = none ∧ pc.restoring = false
  | .freeReply _ _ _ => False
  | .removeReq _ _ (.desk _ _ _) => False
  | .forceReply _ ret => ret ≠ 3
  | _ => True

/-- The lobby has the desk, and at this home. -/
def At (d : Lobby.Data) (id : ℕ) (home : Lobby.Ref) : Prop :=
  ∃ e, d.deskmap.lookup id = some e ∧ e.home = home

/-- **The invariant.** -/
structure Safe (s : Net) (l : List Thread) : Prop where
  nodup : (Lobby.places s.lobby (l.filterMap Thread.lobby?)).Nodup
  owners : (l.filterMap Thread.owns?).Pairwise fun p q => p.1 ≠ q.1
  owned : ∀ t ∈ l, ∀ id home, t.owns? = some (id, home) →
    At s.lobby id home ∧ ∀ h, (s.desks h).lookup id = none
  made : ∀ home id c, (s.desks home).lookup id = some c → At s.lobby id home
  watched : ∀ t ∈ s.lobby.timers, ∀ id, t.work = .monitor id → ∃ h, (s.desks h).lookup id ≠ none
  found : ∀ t ∈ l, ∀ id home, t.finds? = some (id, home) → (s.desks home).lookup id ≠ none
  calm : ∀ t ∈ l, t.calm

variable {s : Net} {l l' : List Thread}

theorem Safe.perm (h : Safe s l) (hl : l.Perm l') : Safe s l' where
  nodup := by
    have hp : (Lobby.places s.lobby (l.filterMap Thread.lobby?)).Perm
        (Lobby.places s.lobby (l'.filterMap Thread.lobby?)) :=
      (((hl.filterMap _).filterMap _).append_left _).append_left _
    exact hp.nodup_iff.1 h.nodup
  owners := ((hl.filterMap _).pairwise_iff (fun hne => Ne.symm hne)).1 h.owners
  owned := fun t ht => h.owned t (hl.mem_iff.2 ht)
  made := h.made
  watched := h.watched
  found := fun t ht => h.found t (hl.mem_iff.2 ht)
  calm := fun t ht => h.calm t (hl.mem_iff.2 ht)

/-- A free number is in no table. -/
theorem Safe.lookup_none (h : Safe s l) {id : ℕ} (hid : s.lobby.deskmap.lookup id = none)
    (home : Lobby.Ref) :
    (s.desks home).lookup id = none := by
  cases hc : (s.desks home).lookup id with
  | none => rfl
  | some c =>
      obtain ⟨e, he, -⟩ := h.made home id c hc
      rw [hid] at he
      cases he

/-- **The invariant is what is to be shown.** -/
theorem Safe.reuseSafe {s : Pool Net Thread} (h : Safe s.shared s.cos) : ReuseSafe s := by
  refine ⟨?_, ?_⟩
  · intro id hid home
    refine h.lookup_none ?_ home
    cases he : s.shared.lobby.deskmap.lookup id with
    | none => rfl
    | some e =>
        have hkey : id ∈ s.shared.lobby.deskmap.keys :=
          lookup_isSome_iff_mem_keys.1 (by rw [he]; rfl)
        exact absurd rfl ((List.nodup_append.1 h.nodup).2.2 id hid id (List.mem_append_left _ hkey))
  · intro deskid desk ht
    exact (h.owned _ ht deskid desk.home rfl).2 desk.home

/-- A coroutine that holds nothing. -/
structure Thread.Idle (t : Thread) : Prop where
  lobby : t.lobby? = none
  owns : t.owns? = none
  finds : t.finds? = none
  calm : t.calm

theorem Safe.cons_idle (h : Safe s l) {t : Thread} (ht : t.Idle) : Safe s (t :: l) where
  nodup := by rw [List.filterMap_cons_none ht.lobby]; exact h.nodup
  owners := by rw [List.filterMap_cons_none ht.owns]; exact h.owners
  owned := List.forall_mem_cons.2 ⟨by simp [ht.owns], h.owned⟩
  made := h.made
  watched := h.watched
  found := List.forall_mem_cons.2 ⟨by simp [ht.finds], h.found⟩
  calm := List.forall_mem_cons.2 ⟨ht.calm, h.calm⟩

/-- A coroutine ends. -/
theorem Safe.tail {t : Thread} (h : Safe s (t :: l)) : Safe s l where
  nodup := by
    have hsub : (Lobby.places s.lobby (l.filterMap Thread.lobby?)).Sublist
        (Lobby.places s.lobby ((t :: l).filterMap Thread.lobby?)) :=
      ((((List.sublist_cons_self t l).filterMap _).filterMap _).append_left _).append_left _
    exact h.nodup.sublist hsub
  owners := h.owners.sublist ((List.sublist_cons_self t l).filterMap _)
  owned := (List.forall_mem_cons.1 h.owned).2
  made := h.made
  watched := h.watched
  found := (List.forall_mem_cons.1 h.found).2
  calm := (List.forall_mem_cons.1 h.calm).2

/-- A coroutine that finds its desk. -/
theorem Safe.cons_finds (h : Safe s l) {t : Thread} {id : ℕ} {home : Lobby.Ref}
    (hl : t.lobby? = none)
    (ho : t.owns? = none) (hf : t.finds? = some (id, home)) (hc : t.calm)
    (hin : (s.desks home).lookup id ≠ none) : Safe s (t :: l) where
  nodup := by rw [List.filterMap_cons_none hl]; exact h.nodup
  owners := by rw [List.filterMap_cons_none ho]; exact h.owners
  owned := List.forall_mem_cons.2 ⟨by simp [ho], h.owned⟩
  made := h.made
  watched := h.watched
  found := by
    refine List.forall_mem_cons.2 ⟨fun id' home' hf' => ?_, h.found⟩
    rw [hf] at hf'
    obtain ⟨rfl, rfl⟩ := Prod.mk.inj (Option.some_inj.1 hf')
    exact hin
  calm := List.forall_mem_cons.2 ⟨hc, h.calm⟩

/-- A coroutine that owns a desk nobody else owns. -/
theorem Safe.cons_owns (h : Safe s l) {t : Thread} {id : ℕ} {home : Lobby.Ref}
    (hl : t.lobby? = none)
    (ho : t.owns? = some (id, home)) (hf : t.finds? = none) (hc : t.calm)
    (hat : At s.lobby id home) (hout : ∀ h, (s.desks h).lookup id = none)
    (hother : ∀ p ∈ l.filterMap Thread.owns?, id ≠ p.1) : Safe s (t :: l) where
  nodup := by rw [List.filterMap_cons_none hl]; exact h.nodup
  owners := by
    rw [List.filterMap_cons_some ho]
    exact List.pairwise_cons.2 ⟨hother, h.owners⟩
  owned := by
    refine List.forall_mem_cons.2 ⟨fun id' home' ho' => ?_, h.owned⟩
    rw [ho] at ho'
    obtain ⟨rfl, rfl⟩ := Prod.mk.inj (Option.some_inj.1 ho')
    exact ⟨hat, hout⟩
  made := h.made
  watched := h.watched
  found := List.forall_mem_cons.2 ⟨by simp [hf], h.found⟩
  calm := List.forall_mem_cons.2 ⟨hc, h.calm⟩

/-- Nobody owns a desk that the lobby does not have. -/
theorem Safe.not_owned (h : Safe s l) {id : ℕ} (hid : s.lobby.deskmap.lookup id = none) :
    ∀ p ∈ l.filterMap Thread.owns?, id ≠ p.1 := by
  intro p hp hne
  obtain ⟨t, ht, ho⟩ := List.mem_filterMap.1 hp
  obtain ⟨⟨e, he, -⟩, -⟩ := h.owned t ht p.1 p.2 ho
  rw [← hne, hid] at he
  cases he

/-- The owner of a desk hands it on. -/
theorem Safe.hand {t u : Thread} {id : ℕ} {home : Lobby.Ref} (h : Safe s (t :: l))
    (ho : t.owns? = some (id, home)) (hl' : u.lobby? = none) (ho' : u.owns? = some (id, home))
    (hf' : u.finds? = none) (hc' : u.calm) : Safe s (u :: l) := by
  obtain ⟨hat, hout⟩ := h.owned t List.mem_cons_self id home ho
  have hown := h.owners
  rw [List.filterMap_cons_some ho] at hown
  exact h.tail.cons_owns hl' ho' hf' hc' hat hout (List.pairwise_cons.1 hown).1

/-- A coroutine of the lobby that holds a number. -/
theorem Safe.cons_lobby (h : Safe s l) {t : Thread} {pc : Lobby.Pc} (hl : t.lobby? = some pc)
    (ho : t.owns? = none) (hf : t.finds? = none) (hc : t.calm)
    (hn : (Lobby.places s.lobby (pc :: l.filterMap Thread.lobby?)).Nodup) : Safe s (t :: l) where
  nodup := by rw [List.filterMap_cons_some hl]; exact hn
  owners := by rw [List.filterMap_cons_none ho]; exact h.owners
  owned := List.forall_mem_cons.2 ⟨by simp [ho], h.owned⟩
  made := h.made
  watched := h.watched
  found := List.forall_mem_cons.2 ⟨by simp [hf], h.found⟩
  calm := List.forall_mem_cons.2 ⟨hc, h.calm⟩

/-! ### What the lobby does -/

/-- **A segment of the lobby** that takes no desk away and starts no timer for a desk that is not
there. -/
theorem Safe.setLobby (h : Safe s l) {d : Lobby.Data}
    (hn : (Lobby.places d (l.filterMap Thread.lobby?)).Nodup)
    (hat : ∀ id home, At s.lobby id home → At d id home)
    (hw : ∀ t ∈ d.timers, ∀ id, t.work = .monitor id →
      (∃ t' ∈ s.lobby.timers, t'.work = .monitor id) ∨ ∃ h, (s.desks h).lookup id ≠ none) :
    Safe { s with lobby := d } l where
  nodup := hn
  owners := h.owners
  owned := fun t ht id home ho =>
    ⟨hat id home (h.owned t ht id home ho).1, (h.owned t ht id home ho).2⟩
  made := fun home id c hc => hat id home (h.made home id c hc)
  watched := by
    intro t ht id hwork
    rcases hw t ht id hwork with ⟨t', ht', hwork'⟩ | hin
    · exact h.watched t' ht' id hwork'
    · exact hin
  found := h.found
  calm := h.calm

/-- A number is entered, for the agent that asked for it. -/
theorem Safe.enter (h : Safe s l) {id : ℕ} {e : Desk} {homes : Lobby.Ref → Lobby.Home}
    {nhome : ℕ} {games : Table String (List Lobby.Ref)}
    (hid : id ∉ Lobby.places s.lobby (l.filterMap Thread.lobby?)) :
    Safe { s with lobby :=
        ({ s.lobby with homes := homes, nhome := nhome, games := games }.enter id e) }
      (.charge id e :: l) := by
  have hnone := Lobby.lookup_none_of_notMem hid
  have hlook : ∀ id' e', s.lobby.deskmap.lookup id' = some e' →
      (s.lobby.deskmap.insert id e).lookup id' = some e' := by
    intro id' e' he'
    have hne : id' ≠ id := by
      rintro rfl
      rw [hnone] at he'
      cases he'
    rw [lookup_insert_eq, if_neg hne]
    exact he'
  have howns : (Thread.charge id e).owns? = some (id, e.home) := rfl
  refine Safe.cons_owns (h.setLobby ?_ ?_ ?_) rfl howns rfl trivial
    ⟨e, AList.lookup_insert _, rfl⟩ (h.lookup_none hnone) (h.not_owned hnone)
  · exact (Lobby.places_enter (d := { s.lobby with homes := homes, nhome := nhome, games := games })
      hid e).nodup_iff.2 (List.nodup_cons.2 ⟨hid, h.nodup⟩)
  · rintro id' home ⟨e', he', hh⟩
    exact ⟨e', hlook id' e' he', hh⟩
  · exact fun t ht id' hw => Or.inl ⟨t, ht, hw⟩

/-- A number is drawn. -/
theorem Safe.draw (h : Safe s l) {id : ℕ} {b : List ℕ} (hp : s.lobby.buffer.Perm (id :: b)) :
    Safe { s with lobby := { s.lobby with buffer := b } } l ∧
      id ∉ Lobby.places { s.lobby with buffer := b } (l.filterMap Thread.lobby?) := by
  have hperm : (Lobby.places s.lobby (l.filterMap Thread.lobby?)).Perm
      (id :: Lobby.places { s.lobby with buffer := b } (l.filterMap Thread.lobby?)) :=
    hp.append_right _
  obtain ⟨hid, hn⟩ := List.nodup_cons.1 (hperm.nodup_iff.1 h.nodup)
  exact ⟨h.setLobby hn (fun _ _ ha => ha) fun t ht id' hw => Or.inl ⟨t, ht, hw⟩, hid⟩

/-- **`lobby.assign`**. -/
theorem Safe.assign (h : Safe s l) (userid : ℕ) (info : Lobby.Info) (inp : Lobby.Inp) :
    Safe (s.run .monitor (Lobby.assign s.lobby userid info inp)).1
      ((s.run .monitor (Lobby.assign s.lobby userid info inp)).2 ++ l) := by
  unfold Lobby.assign
  split
  · exact h
  · split
    · exact h
    · rename_i id b hdraw
      obtain ⟨h', hid⟩ := h.draw (Lobby.randomId_perm hdraw)
      dsimp only
      split
      · exact h'
      · rename_i pay _
        split
        · exact h'.enter (e := ⟨_, info, userid, pay, false⟩) hid
        · have hlobby : (Thread.lobby (.newservice id info userid pay)).lobby? =
              some (.newservice id info userid pay) := rfl
          refine h'.cons_lobby hlobby rfl rfl ⟨rfl, rfl⟩ ?_
          exact (Lobby.places_cons rfl).nodup_iff.2 (List.nodup_cons.2 ⟨hid, h'.nodup⟩)

/-- **A coroutine of the lobby runs**: a new service, or nothing. -/
theorem Safe.lobbyResume {pc : Lobby.Pc} {inp : Lobby.Inp} (h : Safe s (.lobby pc :: l))
    (hret : inp.ret ≠ 3) :
    Safe (s.run .monitor (Lobby.resume s.lobby inp pc)).1
      ((s.run .monitor (Lobby.resume s.lobby inp pc)).2 ++ l) := by
  obtain ⟨hleave, hrest⟩ := h.calm _ List.mem_cons_self
  unfold Lobby.resume
  split
  · exact h.tail
  · cases pc with
    | newservice id info creater pay =>
        have hn : (Lobby.places s.lobby
            (.newservice id info creater pay :: l.filterMap Thread.lobby?)).Nodup := h.nodup
        obtain ⟨hid, -⟩ := List.nodup_cons.1 ((Lobby.places_cons rfl).nodup_iff.1 hn)
        exact h.tail.enter (e := ⟨s.lobby.nhome, info, creater, pay, false⟩) hid
    | removeMydesk id e => cases hleave
    | forceDismiss id home =>
        exact h.tail
    | freeDesk id => cases hrest
    | exit home => exact h.tail

/-- **`lobby.free`** of a desk that has not been created. -/
theorem Safe.free {t : Thread} {id : ℕ} {home : Lobby.Ref} (h : Safe s (t :: l))
    (ho : t.owns? = some (id, home)) :
    Safe (s.run .agent (Lobby.free s.lobby id)).1
      ((s.run .agent (Lobby.free s.lobby id)).2 ++ l) := by
  obtain ⟨⟨e, he, -⟩, hout⟩ := h.owned t List.mem_cons_self id home ho
  have hown := h.owners
  rw [List.filterMap_cons_some ho] at hown
  have hother := (List.pairwise_cons.1 hown).1
  have ht := h.tail
  -- the timer of the desk is cancelled, and the desk is taken out
  have hmap := Lobby.deskmap_unwatched s.lobby id
  have hplaces : Lobby.places (s.lobby.unwatched id) (l.filterMap Thread.lobby?) =
      Lobby.places s.lobby (l.filterMap Thread.lobby?) := by
    unfold Lobby.Data.unwatched
    split <;> rfl
  have heq : Lobby.free s.lobby id = .wait { s.lobby.unwatched id with
      deskmap := (s.lobby.unwatched id).deskmap.erase id } (.removeMydesk id e) := by
    rw [Lobby.free_eq, show (s.lobby.unwatched id).deskmap.lookup id =
      some e by rw [hmap]; exact he]
    rfl
  have hat : ∀ id' home', id' ≠ id → At s.lobby id' home' →
      At { s.lobby.unwatched id with deskmap := (s.lobby.unwatched id).deskmap.erase id }
      id' home' := by
    rintro id' home' hne ⟨e', he', hh⟩
    refine ⟨e', ?_, hh⟩
    change ((s.lobby.unwatched id).deskmap.erase id).lookup id' = some e'
    rw [lookup_erase_eq, if_neg hne, hmap]
    exact he'
  have hn : (Lobby.places { s.lobby.unwatched id with
      deskmap := (s.lobby.unwatched id).deskmap.erase id }
      (.removeMydesk id e :: l.filterMap Thread.lobby?)).Nodup := by
    refine (Lobby.places_erase (d := s.lobby.unwatched id) (e := e) (by rw [hmap]; exact he)
      rfl).nodup_iff.2 ?_
    rw [hplaces]
    exact ht.nodup
  rw [heq]
  refine Safe.cons_lobby (t := .removeReq id e .agent) ?_ rfl rfl rfl trivial hn
  constructor
  · refine hn.sublist ?_
    exact (((List.sublist_cons_self _ _).filterMap _).append_left _).append_left _
  · exact ht.owners
  · intro t' ht' id' home' ho'
    obtain ⟨hat', hout'⟩ := ht.owned t' ht' id' home' ho'
    have hne : id' ≠ id := fun hne =>
      hother (id', home') (List.mem_filterMap.2 ⟨t', ht', ho'⟩) hne.symm
    exact ⟨hat id' home' hne hat', hout'⟩
  · intro home' id' c hc
    have hne : id' ≠ id := by
      rintro rfl
      have hc : (s.desks home').lookup id' = some c := hc
      rw [hout home'] at hc
      cases hc
    exact hat id' home' hne (ht.made home' id' c hc)
  · intro tm htm id' hw
    have htm : tm ∈ (s.lobby.unwatched id).timers := htm
    unfold Lobby.Data.unwatched at htm
    split at htm
    · exact ht.watched tm htm id' hw
    · obtain ⟨t', ht', -, hwork, -⟩ := Lobby.mem_removeTimer htm
      exact ht.watched t' ht' id' (hwork ▸ hw)
  · exact ht.found
  · exact ht.calm

theorem deskmap_freed (d : Lobby.Data) (id : ℕ) (e : Desk) :
    (Lobby.freed d id e).d.deskmap = d.deskmap := by
  unfold Lobby.freed Lobby.addKillQueue
  dsimp only [Lobby.Out.d]
  split <;> split <;> rfl

theorem buffer_freed (d : Lobby.Data) (id : ℕ) (e : Desk) :
    (Lobby.freed d id e).d.buffer = d.buffer ∨ (Lobby.freed d id e).d.buffer =
    d.buffer ++ [id] := by
  unfold Lobby.freed Lobby.addKillQueue
  dsimp only [Lobby.Out.d]
  split
  · split <;> exact Or.inr rfl
  · split <;> exact Or.inl rfl

/-- A desk service may get a timer that ends it. -/
theorem timers_freed {d : Lobby.Data} {id id' : ℕ} {e : Desk} {t : Lobby.Timer}
    (ht : t ∈ (Lobby.freed d id e).d.timers) (hw : t.work = .monitor id') : t ∈ d.timers := by
  unfold Lobby.freed Lobby.addKillQueue at ht
  dsimp only [Lobby.Out.d] at ht
  have hadd : ∀ ts : List Lobby.Timer, t ∈ ts ++ [⟨d.ntimer, .kill e.info.game e.home, false⟩] →
    t ∈ ts := by
    intro ts hts
    rcases List.mem_append.1 hts with hts | hts
    · exact hts
    · obtain rfl := List.mem_singleton.1 hts
      cases hw
  split at ht
  · split at ht
    · exact hadd _ ht
    · exact ht
  · split at ht
    · exact hadd _ ht
    · exact ht

/-- **`lobby.free` goes on**, for a desk that was not created: its number may come back. -/
theorem Safe.freed {id : ℕ} {e : Desk} {caller : Caller}
    (h : Safe s (.removeReq id e caller :: l)) :
    Safe (s.run caller (Lobby.freed s.lobby id e)).1
      ((s.run caller (Lobby.freed s.lobby id e)).2 ++ l) := by
  have hn : (Lobby.places s.lobby (.removeMydesk id e :: l.filterMap Thread.lobby?)).Nodup :=
    h.nodup
  have hcons := List.nodup_cons.1 ((Lobby.places_cons rfl).nodup_iff.1 hn)
  have hsafe : Safe { s with lobby := (Lobby.freed s.lobby id e).d } l := by
    refine h.tail.setLobby ?_ ?_ fun t ht id' hw => Or.inl ⟨t, timers_freed ht hw, hw⟩
    · unfold Lobby.places
      rw [deskmap_freed]
      rcases buffer_freed s.lobby id e with hb | hb
      · rw [hb]
        exact hcons.2
      · rw [hb, List.append_assoc]
        exact List.perm_middle.nodup_iff.2 (List.nodup_cons.2 hcons)
    · rintro id' home ⟨e', he', hh⟩
      refine ⟨e', ?_, hh⟩
      rw [deskmap_freed]
      exact he'
  have hcalm := h.calm _ List.mem_cons_self
  cases caller with
  | agent => exact hsafe
  | monitor => exact hsafe
  | desk home deskid after => cases hcalm

/-- **`lobby.monitor_desk`** finds the desk that calls it. -/
theorem Safe.monitorDesk {id : ℕ} {home : Lobby.Ref} (h : Safe s (.monitorReq id home :: l)) :
    ∃ d, Lobby.monitorDesk s.lobby id = .ret d .nil ∧ Safe { s with lobby := d } l := by
  have hin := h.found _ List.mem_cons_self id home rfl
  obtain ⟨c, hc⟩ := Option.ne_none_iff_exists'.1 hin
  obtain ⟨e, he, rfl⟩ := h.made home id c hc
  have heq : Lobby.monitorDesk s.lobby id =
      .ret (({ s.lobby with monitor := s.lobby.monitor.insert id s.lobby.ntimer }.enter id
        { e with monitored := true }).addTimer (.monitor id)) .nil := by
    simp only [Lobby.monitorDesk, he]
  refine ⟨_, heq, h.tail.setLobby ?_ ?_ ?_⟩
  · have hkey : id ∈ s.lobby.deskmap.keys := lookup_isSome_iff_mem_keys.1 (by rw [he]; rfl)
    have hkeys : ((s.lobby.deskmap.insert id { e with monitored := true }).keys).Perm
        s.lobby.deskmap.keys := by
      rw [AList.keys_insert]
      exact (List.perm_cons_erase hkey).symm
    exact ((hkeys.append_right _).append_left _).nodup_iff.2 h.tail.nodup
  · rintro id' home ⟨e', he', hh⟩
    unfold At
    change ∃ e', (s.lobby.deskmap.insert id { e with monitored := true }).lookup id' = some e' ∧ _
    rw [lookup_insert_eq]
    split
    · rename_i hid
      subst hid
      rw [he] at he'
      obtain rfl := Option.some_inj.1 he'
      exact ⟨_, rfl, hh⟩
    · exact ⟨e', he', hh⟩
  · intro t ht id' hw
    rcases List.mem_append.1 ht with ht | ht
    · exact Or.inl ⟨t, ht, hw⟩
    · obtain rfl := List.mem_singleton.1 ht
      cases hw
      exact Or.inr ⟨_, hin⟩

/-- **The turn of a timer has come**: `force_dismiss` is sent to a service that has the desk. -/
theorem Safe.tick (h : Safe s l) (k : ℕ) :
    Safe (s.run .monitor (Lobby.tick s.lobby k)).1
      ((s.run .monitor (Lobby.tick s.lobby k)).2 ++ l) := by
  unfold Lobby.tick
  split
  · exact h
  · rename_i t ht
    have h' : Safe { s with lobby := { s.lobby with timers := s.lobby.timers.eraseIdx k } } l :=
      h.setLobby h.nodup (fun _ _ hat => hat)
        fun t ht id hw => Or.inl ⟨t, List.mem_of_mem_eraseIdx ht, hw⟩
    dsimp only
    split
    · exact h'
    · cases hw : t.work with
      | monitor id =>
          obtain ⟨home, hin⟩ := h.watched t (List.mem_of_getElem? ht) id hw
          obtain ⟨c, hc⟩ := Option.ne_none_iff_exists'.1 hin
          obtain ⟨e, he, rfl⟩ := h.made home id c hc
          have heq : Lobby.deskMonitorWork
              { s.lobby with timers := s.lobby.timers.eraseIdx k } id =
              .wait { s.lobby with timers := s.lobby.timers.eraseIdx k }
              (.forceDismiss id e.home) := by
            simp only [Lobby.deskMonitorWork, he]
          dsimp only
          rw [heq]
          exact h'.cons_finds rfl rfl rfl trivial hin
      | kill game home =>
          dsimp only
          unfold Lobby.killWork
          split
          · have h'' := h'.setLobby (d := { s.lobby with
                timers := s.lobby.timers.eraseIdx k
                games := s.lobby.games.insert game
                  (((s.lobby.games.lookup game).getD []).erase home)
                exited := home :: s.lobby.exited }) h'.nodup (fun _ _ hat => hat)
              fun t ht id hw => Or.inl ⟨t, ht, hw⟩
            exact h''.cons_lobby (t := .lobby (.exit home)) rfl rfl rfl ⟨rfl, rfl⟩ h'.nodup
          · exact h'

/-- **The desk is entered** by the service that was to create it. -/
theorem Safe.creating {id : ℕ} {e : Desk} (h : Safe s (.creating id e :: l)) :
    Safe (s.setDesks e.home ((s.desks e.home).insert id e.creater)) l := by
  obtain ⟨hat, hout⟩ := h.owned _ List.mem_cons_self id e.home rfl
  have hown : ((id, e.home) :: l.filterMap Thread.owns?).Pairwise fun p q => p.1 ≠ q.1 := h.owners
  have hother := (List.pairwise_cons.1 hown).1
  have hlook : ∀ home id', ((s.setDesks e.home ((s.desks e.home).insert id e.creater)).desks
      home).lookup id' = if home = e.home ∧ id' = id then some e.creater
        else (s.desks home).lookup id' := by
    intro home id'
    unfold Net.setDesks
    by_cases hh : home = e.home
    · subst hh
      simp [lookup_insert_eq]
    · simp [hh]
  have hmono : ∀ home id', (s.desks home).lookup id' ≠ none →
      ((s.setDesks e.home ((s.desks e.home).insert id e.creater)).desks home).lookup id' ≠
      none := by
    intro home id' hin
    rw [hlook]
    split
    · simp
    · exact hin
  have ht := h.tail
  refine ⟨ht.nodup, ht.owners, ?_, ?_, ?_,
    fun t hmem id' home hf => hmono home id' (ht.found t hmem id' home hf),
    ht.calm⟩
  · intro t hmem id' home ho
    obtain ⟨hat', hout'⟩ := ht.owned t hmem id' home ho
    refine ⟨hat', fun h' => ?_⟩
    have hne : id' ≠ id := fun hne =>
      hother (id', home) (List.mem_filterMap.2 ⟨t, hmem, ho⟩) hne.symm
    rw [hlook, if_neg (fun hc => hne hc.2)]
    exact hout' h'
  · intro home id' c hc
    rw [hlook] at hc
    split at hc
    · rename_i hsame
      rw [hsame.1, hsame.2]
      exact hat
    · exact ht.made home id' c hc
  · intro t hmem id' hw
    obtain ⟨home, hin⟩ := ht.watched t hmem id' hw
    exact ⟨home, hmono home id' hin⟩

/-! ### Runs -/

/-- **The first segment of a request.** -/
theorem Safe.direct (h : Safe s l) (inp : Inp) (r : Req) :
    Safe (direct s inp r).1 ((direct s inp r).2 ++ l) := by
  cases r with
  | openGame name =>
      unfold Rooms.direct Lobby.openGame
      dsimp only
      split
      · exact h
      · exact h.setLobby h.nodup (fun _ _ hat => hat) fun t ht id hw => Or.inl ⟨t, ht, hw⟩
  | create userid info => exact h.assign userid info _
  | dismiss deskid home =>
      unfold Rooms.direct
      dsimp only
      split
      · exact h.cons_idle ⟨rfl, rfl, rfl, trivial⟩
      · exact h
  | tick k => exact h.tick k

/-- **The segment after a yield**, if it is not a `lobby.free` that `free_desk` calls. -/
theorem Safe.resume {t : Thread} (h : Safe s (t :: l)) (inp : Inp)
    (hfree : ∀ id home after, t ≠ .freeReq id home after) :
    Safe (resume s inp t).1 ((resume s inp t).2 ++ l) := by
  have ht := h.tail
  cases t with
  | lobby pc =>
      have hret : ({ raised := inp.raised } : Lobby.Inp).ret ≠ 3 := by simp
      exact h.lobbyResume hret
  | charge deskid desk =>
      unfold Rooms.resume charged
      dsimp only
      generalize (if 0 < desk.pay.total then inp.num else desk.pay.total) = num
      split
      · exact ht
      · split
        · exact h.hand (u := .createReq deskid desk) rfl rfl rfl rfl trivial
        · exact h.hand (u := .agentFree deskid desk.home) rfl rfl rfl rfl trivial
  | createReq deskid desk =>
      -- the assertion holds: nobody has a desk that is still to be created
      have hnone := (h.owned _ List.mem_cons_self deskid desk.home rfl).2 desk.home
      have heq : Rooms.resume s inp (.createReq deskid desk) = (s, [.creating deskid desk]) := by
        simp only [Rooms.resume, create, hnone]
      rw [heq]
      exact h.hand rfl rfl rfl rfl trivial
  | creating deskid desk =>
      unfold Rooms.resume
      dsimp only
      split
      · exact ht
      · refine h.creating.cons_finds rfl rfl rfl trivial ?_
        simp [Net.setDesks]
  | monitorReq deskid home =>
      obtain ⟨d, hd, hsafe⟩ := h.monitorDesk
      have heq : Rooms.resume s inp (.monitorReq deskid home) =
          ({ s with lobby := d }, [.monitorReply deskid home true]) := by
        simp only [Rooms.resume, hd]
      rw [heq]
      exact hsafe.cons_idle ⟨rfl, rfl, rfl, trivial⟩
  | monitorReply deskid home ok =>
      cases ok with
      | true => exact ht.cons_idle ⟨rfl, rfl, rfl, trivial⟩
      | false => exact ht
  | newDesk deskid home => exact ht.cons_idle ⟨rfl, rfl, rfl, trivial⟩
  | freeing deskid home after =>
      unfold Rooms.resume
      dsimp only
      split
      · exact ht
      · exact ht.cons_idle ⟨rfl, rfl, rfl, trivial⟩
  | freeReq deskid home after => exact absurd rfl (hfree deskid home after)
  | agentFree deskid home => exact h.free rfl
  | removeReq deskid desk caller =>
      unfold Rooms.resume
      dsimp only
      split
      · exact ht
      · exact h.freed
  | freeReply deskid home after =>
      have hno := h.calm _ List.mem_cons_self
      cases hno
  | forceReq deskid home =>
      obtain ⟨c, hc⟩ := Option.ne_none_iff_exists'.1 (h.found _ List.mem_cons_self deskid home rfl)
      unfold Rooms.resume
      dsimp only
      split
      · exact ht
      · have heq : forceDismiss s inp deskid home =
            if inp.isstart then (s, [.forceReply deskid 2])
            else (s, [.freeing deskid home .force]) := by
          simp only [forceDismiss, hc]
        rw [heq]
        split
        · exact ht.cons_idle ⟨rfl, rfl, rfl, by simp [Thread.calm]⟩
        · exact ht.cons_idle ⟨rfl, rfl, rfl, trivial⟩
  | forceReply deskid ret =>
      have hret : ret ≠ 3 := h.calm _ List.mem_cons_self
      have heq : Rooms.resume s inp (.forceReply deskid ret) = (s, []) := if_neg hret
      rw [heq]
      exact ht

/-- The lobby after its start, and no desk service. -/
def opened (lo n load : ℕ) (roompara : Bool → ℕ → Option ℤ) (active : ℕ → Bool) : Pool Net Thread :=
  ⟨{ lobby := (Lobby.started lo n load roompara active).shared }, []⟩

theorem safe_opened (lo n load : ℕ) (roompara : Bool → ℕ → Option ℤ) (active : ℕ → Bool) :
    Safe (opened lo n load roompara active).shared (opened lo n load roompara active).cos where
  nodup := (Lobby.fits_started lo n load roompara active).numbers.nodup
  owners := List.Pairwise.nil
  owned := List.forall_mem_nil _
  made := fun _ _ _ hc => by cases hc
  watched := List.forall_mem_nil _
  found := List.forall_mem_nil _
  calm := List.forall_mem_nil _

/-- **Numbers are reused safely in every run** in which no `lobby.free` of a desk service is
served. -/
theorem reuseSafe_of_noneFreed {lo n load : ℕ} {roompara : Bool → ℕ → Option ℤ} {active : ℕ → Bool}
    {s : Pool Net Thread}
    (h : rooms.Reach (fun s e => noneFreed s e = true) (opened lo n load roompara active) s) :
    ReuseSafe s := by
  refine Safe.reuseSafe (Machine.Reach.inv (P := fun s => Safe s.shared s.cos)
    (safe_opened lo n load roompara active) ?_ h)
  intro s e s' hs hc he
  rcases Machine.exec_cases he with ⟨r, i, rfl, rfl⟩ | ⟨k, i, l, t, r, out, rfl, hk, hcos, ho, rfl⟩
  · exact (hs.direct i r).perm List.perm_append_comm
  · obtain rfl := Option.some_inj.1 ho
    rw [hcos] at hs
    have hfree : ∀ id home after, t ≠ .freeReq id home after := by
      rintro id home after rfl
      simp [noneFreed, hk] at hc
    refine ((hs.perm List.perm_middle).resume i hfree).perm ?_
    exact (Machine.perm_front _ _ _).symm

/-- A desk is created and waits for its game, another one is not paid for, and its number is given
to a third one. -/
theorem reuseSafe_threeDesks :
    ∃ s, rooms.Reach (fun s e => noneFreed s e = true)
        (opened 100001 4 9 (fun _ _ => some 2) fun _ => false) s ∧
      (s.shared.desks 0).lookup 100001 = some 1 ∧ s.shared.lobby.buffer = [100003, 100002] ∧
      s.cos.length = 2 ∧ ReuseSafe s := by
  obtain ⟨s, hs, hp⟩ := Machine.exists_reach (M := rooms) (C := fun s e => noneFreed s e = true)
    (i := opened 100001 4 9 (fun _ _ => some 2) fun _ => false)
    [.call (.openGame "fish") {}, .call (.create 1 { game := "fish" }) {}, .resume 0 {},
      -- paid for, created, watched
      .resume 0 {}, .resume 0 {}, .resume 0 {}, .resume 0 {}, .resume 0 {},
      -- the second user has no diamonds
      .call (.create 2 { game := "fish" }) {}, .resume 1 { num := -1 }, .resume 1 {}, .resume 1 {},
      .call (.create 3 { game := "fish" }) { roll := 2 }, .resume 1 {}]
    (p := fun s => decide ((s.shared.desks 0).lookup 100001 = some 1 ∧
      s.shared.lobby.buffer = [100003, 100002] ∧ s.cos.length = 2)) (by decide +kernel)
  obtain ⟨hdesk, hbuffer, hcos⟩ := of_decide_eq_true hp
  exact ⟨s, hs, hdesk, hbuffer, hcos, reuseSafe_of_noneFreed hs⟩

/-- **Every desk that is freed breaks the law**: when `remove_mydesk` returns, the number goes into
the buffer, and the desk is still in the table of its service. -/
theorem not_reuseSafe_of_removed {s : Pool Net Thread} {k deskid c : ℕ} {desk : Desk}
    {caller : Caller}
    {inp : Inp} (ht : s.cos[k]? = some (.removeReq deskid desk caller)) (hok : inp.raised = false)
    (hlist : deskid ∈ (s.shared.lobby.homes desk.home).actives)
    (hdesk : (s.shared.desks desk.home).lookup deskid = some c) :
    ∃ s', rooms.exec s (.resume k inp) = some s' ∧ ¬ ReuseSafe s' := by
  refine ⟨_, by simp only [Machine.exec, ht, rooms, Option.map_some]; rfl, fun hsafe => ?_⟩
  have hin : deskid ∈ (resume s.shared inp (.removeReq deskid desk caller)).1.lobby.buffer := by
    have heq : resume s.shared inp (.removeReq deskid desk caller) =
        s.shared.run caller (.ret (Lobby.addKillQueue (s.shared.lobby.strike desk.home deskid) desk)
          .nil) := by
      simp only [resume, Lobby.freed, hok, if_pos hlist]
      rfl
    rw [heq]
    change deskid ∈ (Lobby.addKillQueue (s.shared.lobby.strike desk.home deskid) desk).buffer
    unfold Lobby.addKillQueue
    split <;> exact List.mem_append_right _ (List.mem_singleton_self _)
  have hnone := hsafe.1 deskid hin desk.home
  have hsame : (resume s.shared inp (.removeReq deskid desk caller)).1.desks = s.shared.desks := by
    unfold resume
    dsimp only
    split <;> rfl
  rw [hsame, hdesk] at hnone
  cases hnone

/-- **A number is in the buffer before its desk is dropped.**  While the reply of `lobby.free` is on
its way the number is handed out again, to the same service, and the assertion of `desk.create`
fires when the second user has paid. -/
theorem freed_number_is_in_use :
    (∃ s, rooms.Reach (fun _ _ => True) (opened 100001 1 9 (fun _ _ => some 2) fun _ => false) s ∧
      100001 ∈ s.shared.lobby.buffer ∧ (s.shared.desks 0).lookup 100001 = some 1 ∧ ¬ ReuseSafe s) ∧
    ∃ s, rooms.Reach (fun _ _ => True) (opened 100001 1 9 (fun _ _ => some 2) fun _ => false) s ∧
      (∃ desk, .createReq 100001 desk ∈ s.cos ∧ desk.creater = 2 ∧ desk.home = 0) ∧
      (s.shared.desks 0).lookup 100001 = some 1 := by
  refine ⟨?_, ?_⟩
  · obtain ⟨s, hs, hp⟩ := Machine.exists_reach (M := rooms) (C := fun _ _ => True)
      (i := opened 100001 1 9 (fun _ _ => some 2) fun _ => false)
      [.call (.openGame "fish") {}, .call (.create 1 { game := "fish" }) {}, .resume 0 {},
        .resume 0 {}, .resume 0 {}, .resume 0 {}, .resume 0 {}, .resume 0 {},
        -- the game is over, `free_desk` calls the lobby, and `remove_mydesk` returns
        .resume 0 {}, .resume 0 {}, .resume 0 {}, .resume 0 {}]
      (p := fun s => decide (100001 ∈ s.shared.lobby.buffer ∧
        (s.shared.desks 0).lookup 100001 = some 1)) (by decide +kernel)
    obtain ⟨hbuffer, hdesk⟩ := of_decide_eq_true hp
    refine ⟨s, hs, hbuffer, hdesk, fun hsafe => ?_⟩
    have hnone := hsafe.1 100001 hbuffer 0
    rw [hdesk] at hnone
    cases hnone
  · obtain ⟨s, hs, hp⟩ := Machine.exists_reach (M := rooms) (C := fun _ _ => True)
      (i := opened 100001 1 9 (fun _ _ => some 2) fun _ => false)
      [.call (.openGame "fish") {}, .call (.create 1 { game := "fish" }) {}, .resume 0 {},
        .resume 0 {}, .resume 0 {}, .resume 0 {}, .resume 0 {}, .resume 0 {},
        .resume 0 {}, .resume 0 {}, .resume 0 {}, .resume 0 {},
        -- the second user gets the number and pays
        .call (.create 2 { game := "fish" }) {}, .resume 1 {}]
      (p := fun s => (s.cos.any fun t : Thread => t.creates?.any fun x : ℕ × Desk =>
        decide (x.1 = 100001 ∧ x.2.creater = 2 ∧ x.2.home = 0)) &&
          decide ((s.shared.desks 0).lookup 100001 = some 1)) (by decide +kernel)
    obtain ⟨hreq, hdesk⟩ := Bool.and_eq_true_iff.1 hp
    refine ⟨s, hs, ?_, of_decide_eq_true hdesk⟩
    obtain ⟨t, ht, hx⟩ := List.any_eq_true.1 hreq
    cases hcreates : t.creates? with
    | none =>
        rw [hcreates] at hx
        cases hx
    | some x =>
        obtain ⟨deskid, desk⟩ := x
        rw [hcreates] at hx
        obtain ⟨hid, hcreater, hhome⟩ := of_decide_eq_true hx
        have hid : deskid = 100001 := hid
        rw [hid] at hcreates
        exact ⟨desk, Thread.eq_of_creates? hcreates ▸ ht, hcreater, hhome⟩

end Halieutics.Rooms
