/-
**The load of the agents.**

`free_agent` lowers the count of an agent and closes the agent when nobody is left, so a count that
is too low ends the sessions of other users.  The count of an agent should be the number of users
mapped to it.  A slot that `watchdog.assign` takes becomes an entry of `data.users`, or is given
back, before the coroutine yields again, so between two segments no slot is merely reserved.

The handlers that end a session are less careful.  `watchdog.kick` and `watchdog.try_kick` look the
user up, call the agent, and then free the slot and drop the entry without looking again; and all of
them free the slot before they drop the entry, so that an agent is closed while its last user is
still mapped to it.

Main definitions:

* `Load` — the accounting of the agents;
* `settled` — the condition: a slot is freed with the entry that took it, and not the last one of an
  agent that would be closed.

Main results:

* `Load.enterSlot`, `Load.startAgent`, `Load.drop` — what taking and freeing a slot do to the
  accounting;
* `load_of_settled` — **the accounting holds in every run that meets the condition**;
* `kick_twice_frees_twice` — **two kicks of one user free two slots**.
-/

import Halieutics.Watchdog

set_option relaxedAutoImplicit false
set_option autoImplicit false

namespace Halieutics.Watchdog

open Coroutine LuaTable

/-! ### Counting the users of an agent -/

section Mapped

variable {w : Data}

/-- The records keep their agents. -/
theorem mapped_setRecord (w : Data) (user : Ref) {f : Record → Record}
    (hf : ∀ r, (f r).agent = r.agent) (s : ℕ) : (w.setRecord user f).mapped s = w.mapped s := by
  refine List.countP_congr fun u _ => ?_
  have hagent : ((w.setRecord user f).recs u).agent = (w.recs u).agent := by
    unfold Data.setRecord
    dsimp only
    by_cases hu : u = user
    · rw [hu, Function.update_self, hf]
    · rw [Function.update_of_ne hu]
  rw [hagent]

/-- A new entry. -/
theorem mapped_enter {c : Client} (hnew : w.users.lookup c.id = none)
    (hrecs : ∀ u ∈ vals w.users, u < w.nrec) (agent s : ℕ) :
    (w.enter c agent).mapped s = w.mapped s + if s = agent then 1 else 0 := by
  unfold Data.mapped Data.enter
  dsimp only
  rw [vals_insert hnew, List.countP_cons]
  congr 1
  · refine List.countP_congr fun u hu => ?_
    rw [Function.update_of_ne (hrecs u hu).ne]
  · rw [Function.update_self]
    simp only [beq_iff_eq, eq_comm (a := agent)]

/-- An entry that goes. -/
theorem mapped_erase {id : ℕ} {user : Ref} (h : w.users.lookup id = some user) (s : ℕ) :
    w.mapped s = Data.mapped { w with users := w.users.erase id } s
      + if s = (w.recs user).agent then 1 else 0 := by
  unfold Data.mapped
  rw [(vals_perm_erase h).countP_eq, List.countP_cons]
  simp only [beq_iff_eq, eq_comm (a := (w.recs user).agent)]

end Mapped

/-! ### The accounting -/

/-- **The accounting of the agents**: every count is the number of users mapped to the agent, and
an agent was closed only when there were none. -/
structure Load (w : Data) : Prop where
  nodup : (w.agents.map Agent.service).Nodup
  listed : ∀ a ∈ w.agents, a.service < w.nservice
  recs : ∀ u ∈ vals w.users, u < w.nrec ∧ (w.recs u).agent < w.nservice
  count : ∀ a ∈ w.agents, a.count = w.mapped a.service
  le : ∀ a ∈ w.agents, a.count ≤ w.load
  closed : ∀ p ∈ w.closed, p.2 = 0

/-- The entry of one agent in the list. -/
theorem mem_middle {l₁ l₂ : List Agent} {agent : ℕ} {n : ℤ}
    (hn : ((l₁ ++ ⟨agent, n⟩ :: l₂).map Agent.service).Nodup) {a : Agent} {m : ℤ}
    (ha : a ∈ l₁ ++ ⟨agent, m⟩ :: l₂) :
    a = ⟨agent, m⟩ ∨ (a ∈ l₁ ++ ⟨agent, n⟩ :: l₂ ∧ a.service ≠ agent) := by
  rw [List.map_append, List.map_cons, List.nodup_middle, List.nodup_cons] at hn
  rcases List.mem_append.1 ha with ha | ha
  · refine Or.inr ⟨List.mem_append_left _ ha, fun he => hn.1 ?_⟩
    exact List.mem_append_left _ (List.mem_map.2 ⟨a, ha, he⟩)
  · rcases List.mem_cons.1 ha with rfl | ha
    · exact Or.inl rfl
    · refine Or.inr ⟨List.mem_append_right _ (List.mem_cons_of_mem _ ha), fun he => hn.1 ?_⟩
      exact List.mem_append_right _ (List.mem_map.2 ⟨a, ha, he⟩)

section Steps

variable {w : Data}

theorem Load.setRecord (h : Load w) (user : Ref) {f : Record → Record}
    (hf : ∀ r, (f r).agent = r.agent) : Load (w.setRecord user f) where
  nodup := h.nodup
  listed := h.listed
  recs := by
    intro u hu
    refine ⟨(h.recs u hu).1, ?_⟩
    unfold Data.setRecord
    dsimp only
    by_cases he : u = user
    · rw [he, Function.update_self, hf]
      exact (h.recs user (he ▸ hu)).2
    · rw [Function.update_of_ne he]
      exact (h.recs u hu).2
  count := fun a ha => by rw [mapped_setRecord w user hf]; exact h.count a ha
  le := h.le
  closed := h.closed

/-- The entries of a user who is entered. -/
theorem recs_enter {c : Client} {agent : ℕ} (hagent : agent < w.nservice)
    (hrecs : ∀ u ∈ vals w.users, u < w.nrec ∧ (w.recs u).agent < w.nservice)
    (hnew : w.users.lookup c.id = none) :
    ∀ u ∈ vals (w.enter c agent).users,
      u < (w.enter c agent).nrec ∧ ((w.enter c agent).recs u).agent < w.nservice := by
  intro u hu
  unfold Data.enter at hu ⊢
  dsimp only at hu ⊢
  rw [vals_insert hnew, List.mem_cons] at hu
  rcases hu with rfl | hu
  · rw [Function.update_self]
    exact ⟨Nat.lt_succ_self _, hagent⟩
  · rw [Function.update_of_ne (hrecs u hu).1.ne]
    exact ⟨Nat.lt_succ_of_lt (hrecs u hu).1, (hrecs u hu).2⟩

/-- **A user takes a slot of an agent that runs.** -/
theorem Load.enterSlot (h : Load w) {c : Client} (hnew : w.users.lookup c.id = none) {agent : ℕ}
    {agents : List Agent} (hslot : slotIn w.load w.agents = some (agent, agents)) :
    Load ({ w with agents := agents }.enter c agent) := by
  obtain ⟨l₁, n, l₂, hl, rfl, hlt⟩ := slotIn_cases hslot
  have hmem : (⟨agent, n⟩ : Agent) ∈ w.agents := by rw [hl]; simp
  have hnodup := h.nodup
  rw [hl] at hnodup
  have hmapped : ∀ s, (Data.enter { w with agents := l₁ ++ ⟨agent, n + 1⟩ :: l₂ } c agent).mapped s
      = w.mapped s + if s = agent then 1 else 0 :=
    fun s => mapped_enter (w := { w with agents := l₁ ++ ⟨agent, n + 1⟩ :: l₂ }) hnew
      (fun u hu => (h.recs u hu).1) agent s
  have hcases : ∀ a ∈ l₁ ++ ⟨agent, n + 1⟩ :: l₂,
      a = ⟨agent, n + 1⟩ ∨ (a ∈ w.agents ∧ a.service ≠ agent) := by
    intro a ha
    rw [hl]
    exact mem_middle hnodup ha
  refine ⟨?_, ?_, ?_, ?_, ?_, h.closed⟩
  · simpa [Data.enter] using hnodup
  · intro a ha
    rcases hcases a ha with rfl | ⟨ha, -⟩
    · exact h.listed ⟨agent, n⟩ hmem
    · exact h.listed a ha
  · exact recs_enter (w := { w with agents := l₁ ++ ⟨agent, n + 1⟩ :: l₂ }) (h.listed _ hmem) h.recs
      hnew
  · intro a ha
    rw [hmapped]
    rcases hcases a ha with rfl | ⟨ha, hne⟩
    · have := h.count _ hmem
      dsimp only at this ⊢
      rw [if_pos rfl]
      omega
    · rw [if_neg hne]
      exact h.count a ha
  · intro a ha
    rcases hcases a ha with rfl | ⟨ha, -⟩
    · dsimp only [Data.enter]
      omega
    · exact h.le a ha

/-- An agent that has just been started has no users. -/
theorem Load.mapped_nservice (h : Load w) : w.mapped w.nservice = 0 := by
  refine List.countP_eq_zero.2 fun u hu => ?_
  have := (h.recs u hu).2
  simp only [beq_iff_eq]
  omega

/-- The list with the agent that has just been started. -/
theorem Load.started (h : Load w) :
    (w.startAgent.1.agents.map Agent.service).Nodup ∧
      (∀ a ∈ w.startAgent.1.agents, a.service < w.startAgent.1.nservice) := by
  unfold Data.startAgent
  dsimp only
  refine ⟨?_, ?_⟩
  · rw [List.map_append, List.nodup_append]
    refine ⟨h.nodup, by simp, ?_⟩
    intro s hs t ht
    obtain ⟨a, ha, rfl⟩ := List.mem_map.1 hs
    obtain rfl : t = w.nservice := by simpa using ht
    exact (h.listed a ha).ne
  · intro a ha
    rcases List.mem_append.1 ha with ha | ha
    · exact Nat.lt_succ_of_lt (h.listed a ha)
    · obtain rfl : a = ⟨w.nservice, 1⟩ := by simpa using ha
      exact Nat.lt_succ_self _

/-- **A user takes the first slot of a new agent.** -/
theorem Load.startAgent (h : Load w) (hload : 1 ≤ w.load) {c : Client}
    (hnew : w.users.lookup c.id = none) : Load (w.startAgent.1.enter c w.startAgent.2) := by
  have hmapped : ∀ s, (w.startAgent.1.enter c w.startAgent.2).mapped s
      = w.mapped s + if s = w.nservice then 1 else 0 :=
    fun s => mapped_enter (w := w.startAgent.1) hnew (fun u hu => (h.recs u hu).1) w.nservice s
  have hcases : ∀ a ∈ w.startAgent.1.agents, a ∈ w.agents ∨ a = ⟨w.nservice, 1⟩ := by
    intro a ha
    rcases List.mem_append.1 ha with ha | ha
    · exact Or.inl ha
    · exact Or.inr (by simpa using ha)
  refine ⟨h.started.1, h.started.2, ?_, ?_, ?_, h.closed⟩
  · exact recs_enter (w := w.startAgent.1) (Nat.lt_succ_self _)
      (fun u hu => ⟨(h.recs u hu).1, Nat.lt_succ_of_lt (h.recs u hu).2⟩) hnew
  · intro a ha
    rw [hmapped]
    rcases hcases a ha with ha | rfl
    · rw [if_neg (h.listed a ha).ne]
      exact h.count a ha
    · rw [if_pos rfl, h.mapped_nservice]
      rfl
  · intro a ha
    rcases hcases a ha with ha | rfl
    · exact h.le a ha
    · exact hload

end Steps

/-- **Freeing a slot** makes the counts right when one count is one too high, and closes the agent
only when that leaves nobody. -/
theorem freeIn_count (n agent : ℕ) {f : ℕ → ℤ} {l : List Agent}
    (hn : (l.map Agent.service).Nodup)
    (hcount : ∀ a ∈ l, a.count = f a.service + if a.service = agent then 1 else 0) :
    ((freeIn n agent l).1.map Agent.service).Sublist (l.map Agent.service) ∧
      (∀ a ∈ (freeIn n agent l).1, a.count = f a.service) ∧
      ∀ s, (freeIn n agent l).2 = some s → f s = 0 := by
  rcases freeIn_cases n agent l with
    ⟨hnot, heq⟩ | ⟨l₁, m, l₂, rfl, -, heq⟩ | ⟨l₁, m, l₂, rfl, hlast, heq⟩
  · rw [heq]
    refine ⟨List.Sublist.refl _, fun a ha => ?_, by simp⟩
    have hne : a.service ≠ agent := fun he => hnot (List.mem_map.2 ⟨a, ha, he⟩)
    rw [hcount a ha, if_neg hne, add_zero]
  · rw [heq]
    refine ⟨by simp, fun a ha => ?_, by simp⟩
    rcases mem_middle hn ha with rfl | ⟨ha, hne⟩
    · have := hcount ⟨agent, m⟩ (by simp)
      dsimp only at this ⊢
      rw [if_pos rfl] at this
      omega
    · rw [hcount a ha, if_neg hne, add_zero]
  · rw [heq]
    refine ⟨by simp, fun a ha => ?_, ?_⟩
    · have hmem : a ∈ l₁ ++ (⟨agent, m⟩ : Agent) :: l₂ := by
        rcases List.mem_append.1 ha with ha | ha
        · exact List.mem_append_left _ ha
        · exact List.mem_append_right _ (List.mem_cons_of_mem _ ha)
      have hne : a.service ≠ agent := by
        rw [List.map_append, List.map_cons, List.nodup_middle, List.nodup_cons,
          ← List.map_append] at hn
        exact fun he => hn.1 (List.mem_map.2 ⟨a, ha, he⟩)
      rw [hcount a hmem, if_neg hne, add_zero]
    · intro s hs
      obtain rfl : agent = s := Option.some_inj.1 hs
      have := hcount ⟨agent, m⟩ (by simp)
      dsimp only at this
      rw [if_pos rfl] at this
      omega

section Frees

variable {w : Data}

/-- The services that are left are among those there were. -/
theorem mem_of_freeIn {n agent : ℕ} {l : List Agent}
    (hsub : ((freeIn n agent l).1.map Agent.service).Sublist (l.map Agent.service)) {a : Agent}
    (ha : a ∈ (freeIn n agent l).1) : ∃ b ∈ l, b.service = a.service :=
  List.mem_map.1 (hsub.subset (List.mem_map_of_mem ha))

/-- **A slot that was taken for nothing is freed again.** -/
theorem Load.freeSurplus {agent : ℕ} (hnodup : (w.agents.map Agent.service).Nodup)
    (hlisted : ∀ a ∈ w.agents, a.service < w.nservice)
    (hrecs : ∀ u ∈ vals w.users, u < w.nrec ∧ (w.recs u).agent < w.nservice)
    (hcount : ∀ a ∈ w.agents, a.count = w.mapped a.service + if a.service = agent then 1 else 0)
    (hle : ∀ a ∈ w.agents, a.count ≤ w.load) (hclosed : ∀ p ∈ w.closed, p.2 = 0) :
    Load (w.freeAgent agent).1 := by
  obtain ⟨hsub, hright, hzero⟩ :=
    freeIn_count w.agents.length agent (f := fun s => (w.mapped s : ℤ)) hnodup hcount
  refine ⟨hsub.nodup hnodup, ?_, hrecs, hright, ?_, ?_⟩
  · intro a ha
    obtain ⟨b, hb, hs⟩ := mem_of_freeIn hsub ha
    exact hs ▸ hlisted b hb
  · intro a ha
    obtain ⟨b, hb, hs⟩ := mem_of_freeIn hsub ha
    have h₁ := hright a ha
    have h₂ := hcount b hb
    have h₃ := hle b hb
    dsimp only [Data.freeAgent]
    rw [hs] at h₂
    split at h₂ <;> omega
  · intro p hp
    rcases List.mem_append.1 hp with hp | hp
    · exact hclosed p hp
    · obtain ⟨s, hs, rfl⟩ := Option.map_eq_some_iff.1 (Option.mem_toList.1 hp)
      have := hzero s hs
      dsimp only at this ⊢
      omega

/-- The agent that loses an entry when the user is dropped, if it is listed. -/
def Data.drops (w : Data) (id : ℕ) : Option ℕ :=
  ((w.users.lookup id).map fun u => (w.recs u).agent).filter fun a =>
    decide (a ∈ w.agents.map Agent.service)

/-- The agent whose slot `free_agent` gives back, if it is listed. -/
def Data.frees (w : Data) (agent : ℕ) : Option ℕ :=
  if agent ∈ w.agents.map Agent.service then some agent else none

/-- `free_agent` would close the agent. -/
def Data.closes (w : Data) (agent : ℕ) : Bool := (w.freeAgent agent).2.isSome

/-- Dropping an entry with the slot it took is one change of the accounting. -/
theorem Load.drop (h : Load w) {id agent : ℕ} (hsame : w.frees agent = w.drops id)
    (hopen : w.closes agent = false) :
    Load { (w.freeAgent agent).1 with users := w.users.erase id } := by
  have hnone : (freeIn w.agents.length agent w.agents).2 = none := by
    simpa [Data.closes, Data.freeAgent] using hopen
  set w' : Data := { (w.freeAgent agent).1 with users := w.users.erase id } with hw'
  have hmapped' : ∀ s, w'.mapped s = Data.mapped { w with users := w.users.erase id } s :=
    fun _ => rfl
  -- Every listed agent loses the slot exactly when it loses the entry.
  have hcount : ∀ a ∈ w.agents,
      a.count = (w'.mapped a.service : ℤ) + if a.service = agent then 1 else 0 := by
    intro a ha
    have hlisted : a.service ∈ w.agents.map Agent.service := List.mem_map_of_mem ha
    rw [h.count a ha, hmapped']
    cases hid : w.users.lookup id with
    | none =>
        have hers : Data.mapped { w with users := w.users.erase id } a.service
            = w.mapped a.service := by
          unfold Data.mapped
          dsimp only
          rw [vals, entries_erase_of_none hid, ← vals]
        have hne : a.service ≠ agent := by
          rintro rfl
          simp [Data.frees, Data.drops, hid, hlisted] at hsame
        rw [hers, if_neg hne, add_zero]
    | some user =>
        rw [mapped_erase hid a.service]
        have hiff : a.service = (w.recs user).agent ↔ a.service = agent := by
          constructor
          · intro he
            have hdrops : w.drops id = some a.service := by
              rw [Data.drops, hid, Option.map_some, ← he]
              exact Option.filter_some_pos (decide_eq_true hlisted)
            rw [hdrops, Data.frees] at hsame
            split at hsame
            · exact (Option.some_inj.1 hsame).symm
            · cases hsame
          · rintro rfl
            have hfrees : w.frees a.service = some a.service := if_pos hlisted
            rw [hfrees, Data.drops, hid, Option.map_some] at hsame
            exact (Option.some_inj.1 (Option.filter_eq_some_iff.1 hsame.symm).1).symm
        simp only [hiff]
        split <;> simp
  obtain ⟨hsub, hright, -⟩ :=
    freeIn_count w.agents.length agent (f := fun s => (w'.mapped s : ℤ)) h.nodup hcount
  refine ⟨hsub.nodup h.nodup, ?_, ?_, hright, ?_, ?_⟩
  · intro a ha
    obtain ⟨b, hb, hs⟩ := mem_of_freeIn hsub ha
    exact hs ▸ h.listed b hb
  · intro u hu
    obtain ⟨k, hk⟩ := mem_vals.1 hu
    rw [lookup_erase_eq] at hk
    split at hk
    · cases hk
    · exact h.recs u (mem_vals.2 ⟨k, hk⟩)
  · intro a ha
    obtain ⟨b, hb, hs⟩ := mem_of_freeIn hsub ha
    have h₁ := hright a ha
    have h₂ := hcount b hb
    have h₃ := h.le b hb
    change a.count ≤ w.load
    rw [hs] at h₂
    split at h₂ <;> omega
  · intro p hp
    refine h.closed p ?_
    simpa [hw', Data.freeAgent, hnone] using hp

end Frees

/-! ### Segments -/

/-- Ending a session, and closing its agent. -/
def Pc.closing : Pc → Bool
  | .exitClose _ _ => true
  | .kickClose _ _ _ => true
  | _ => false

/-- A segment keeps the accounting, and no session is ended by closing its agent. -/
structure Keeps (w : Data) (o : Out) : Prop where
  load : Load o.w
  same : o.w.load = w.load
  pcs : ∀ pc ∈ o.pcs, pc.closing = false

section Segments

variable {w : Data}

theorem keeps_ret (h : Load w) (r : Ret) : Keeps w (.ret w r) := ⟨h, rfl, by simp [Out.pcs]⟩

theorem keeps_wait (h : Load w) {pc : Pc} (hpc : pc.closing = false) : Keeps w (.wait w pc) :=
  ⟨h, rfl, by simpa [Out.pcs] using hpc⟩

/-- The gate, the secret and `afk` of a record do not count. -/
theorem keeps_setRecord (h : Load w) (user : Ref) {f : Record → Record} {pc : Pc}
    (hf : ∀ r, (f r).agent = r.agent) (hpc : pc.closing = false) :
    Keeps w (.wait (w.setRecord user f) pc) :=
  ⟨h.setRecord user hf, rfl, by simpa [Out.pcs] using hpc⟩

theorem keeps_assign (h : Load w) (c : Client) : Keeps w (assign w c) := by
  unfold assign
  split
  · exact keeps_setRecord h _ (fun _ => rfl) rfl
  · rename_i hnew
    split
    · rename_i hslot
      exact ⟨h.enterSlot hnew hslot, rfl, by simp [Out.pcs, Pc.closing]⟩
    · exact keeps_wait h rfl

theorem keeps_assignOnto (h : Load w) (c : Client) : Keeps w (assignOnto w c) := by
  unfold assignOnto
  split
  · exact keeps_ret h _
  · exact keeps_setRecord h _ (fun _ => rfl) rfl

/-- The agent that was started for nothing. -/
theorem load_startFree (h : Load w) (hload : 1 ≤ w.load) :
    Load (w.startAgent.1.freeAgent w.startAgent.2).1 := by
  have hcases : ∀ a ∈ w.startAgent.1.agents, a ∈ w.agents ∨ a = ⟨w.nservice, 1⟩ := by
    intro a ha
    rcases List.mem_append.1 ha with ha | ha
    · exact Or.inl ha
    · exact Or.inr (by simpa using ha)
  refine Load.freeSurplus h.started.1 h.started.2
    (fun u hu => ⟨(h.recs u hu).1, Nat.lt_succ_of_lt (h.recs u hu).2⟩) ?_ ?_ h.closed
  · intro a ha
    change a.count = (w.mapped a.service : ℤ) + if a.service = w.nservice then 1 else 0
    rcases hcases a ha with ha | rfl
    · rw [if_neg (h.listed a ha).ne, add_zero]
      exact h.count a ha
    · rw [if_pos rfl, h.mapped_nservice]
      rfl
  · intro a ha
    rcases hcases a ha with ha | rfl
    · exact h.le a ha
    · exact hload

theorem keeps_assignStarted (h : Load w) (hload : 1 ≤ w.load) (c : Client) :
    Keeps w (assignStarted w c) := by
  unfold assignStarted
  dsimp only
  split
  · rename_i hnew
    exact ⟨h.startAgent hload hnew, rfl, by simp [Out.pcs, Pc.closing]⟩
  · have hfree := load_startFree h hload
    split
    · rename_i w' _ heq
      rw [heq] at hfree
      exact ⟨hfree, (congrArg (fun p => p.1.load) heq).symm, by simp [Out.pcs, Pc.closing]⟩
    · rename_i w' heq
      rw [heq] at hfree
      have hk := keeps_assignOnto hfree c
      exact ⟨hk.load, hk.same.trans (congrArg (fun p => p.1.load) heq).symm, hk.pcs⟩

theorem keeps_afk (h : Load w) (id : ℕ) : Keeps w (afk w id) := by
  unfold afk
  split
  · exact keeps_ret h _
  · split
    · exact keeps_ret h _
    · exact keeps_setRecord h _ (fun _ => rfl) rfl

theorem keeps_kick (h : Load w) (id : ℕ) (try_ : Bool) : Keeps w (kick w id try_) := by
  unfold kick
  split
  · exact keeps_ret h _
  · exact keeps_wait h rfl

/-- Freeing a slot that closes nothing. -/
theorem freeAgent_of_open {agent : ℕ} (hopen : w.closes agent = false) :
    w.freeAgent agent = ((w.freeAgent agent).1, none) := by
  have hnone : (w.freeAgent agent).2 = none := by simpa [Data.closes] using hopen
  rw [← hnone]

/-- **`exit` frees the slot of the entry it drops.** -/
theorem keeps_exit (h : Load w) {id : ℕ}
    (hopen : ∀ u, w.users.lookup id = some u → w.closes (w.recs u).agent = false) :
    Keeps w (exit w id) := by
  unfold exit
  split
  · exact keeps_ret h _
  · rename_i user hid
    have hsame : w.frees (w.recs user).agent = w.drops id := by
      rw [Data.frees, Data.drops, hid, Option.map_some, Option.filter_some]
      simp only [decide_eq_true_eq]
    have hdrop := h.drop hsame (hopen user hid)
    rw [freeAgent_of_open (hopen user hid)]
    dsimp only [exitDrop]
    split
    · exact ⟨hdrop, rfl, by simp [Out.pcs]⟩
    · exact ⟨hdrop, rfl, by simp [Out.pcs, Pc.closing]⟩

/-- **`kick` and `try_kick`** when the entry has not changed hands. -/
theorem keeps_kicked (h : Load w) {id : ℕ} {user : Ref} (try_ : Bool)
    (hsame : w.frees (w.recs user).agent = w.drops id)
    (hopen : w.closes (w.recs user).agent = false) : Keeps w (kicked w id user try_) := by
  have hdrop := h.drop hsame hopen
  unfold kicked
  rw [freeAgent_of_open hopen]
  dsimp only [kickDrop]
  split
  · exact ⟨hdrop, rfl, by simp [Out.pcs, Pc.closing]⟩
  · exact ⟨hdrop, rfl, by simp [Out.pcs]⟩

theorem keeps_initAgent (h : Load w) : Keeps w (initAgent w) := by
  unfold initAgent
  split
  · exact keeps_wait h rfl
  · rename_i agent agents hslot
    obtain ⟨l₁, n, l₂, hl, rfl, hlt⟩ := slotIn_cases hslot
    have hmem : (⟨agent, n⟩ : Agent) ∈ w.agents := by rw [hl]; simp
    have hnodup := h.nodup
    rw [hl] at hnodup
    have hcases : ∀ a ∈ l₁ ++ ⟨agent, n + 1⟩ :: l₂,
        a = ⟨agent, n + 1⟩ ∨ (a ∈ w.agents ∧ a.service ≠ agent) := by
      intro a ha
      rw [hl]
      exact mem_middle hnodup ha
    have hfree : Load (Data.freeAgent { w with agents := l₁ ++ ⟨agent, n + 1⟩ :: l₂ } agent).1 := by
      refine Load.freeSurplus (by simpa using hnodup) ?_ h.recs ?_ ?_ h.closed
      · intro a ha
        rcases hcases a ha with rfl | ⟨ha, -⟩
        · exact h.listed ⟨agent, n⟩ hmem
        · exact h.listed a ha
      · intro a ha
        change a.count = (w.mapped a.service : ℤ) + _
        rcases hcases a ha with rfl | ⟨ha, hne⟩
        · rw [if_pos rfl, ← show n = w.mapped agent from h.count _ hmem]
        · rw [if_neg hne, add_zero]
          exact h.count a ha
      · intro a ha
        rcases hcases a ha with rfl | ⟨ha, -⟩
        · dsimp only
          omega
        · exact h.le a ha
    split
    · rename_i w' _ heq
      rw [heq] at hfree
      exact ⟨hfree, (congrArg (fun p => p.1.load) heq).symm, by simp [Out.pcs, Pc.closing]⟩
    · rename_i w' heq
      rw [heq] at hfree
      exact ⟨hfree, (congrArg (fun p => p.1.load) heq).symm, by simp [Out.pcs]⟩

end Segments

/-! ### Runs -/

/-- **The condition.**  A session is ended by freeing the slot that its entry took — after the call
of the agent the user is still mapped to that agent — and the slot is not the last one of an agent
that `free_agent` would close. -/
def settled (s : Pool Data Pc) : Event Req Inp → Bool
  | .call (.exit id) _ =>
      match s.shared.users.lookup id with
      | none => true
      | some u => !s.shared.closes (s.shared.recs u).agent
  | .call _ _ => true
  | .resume k inp =>
      match s.cos[k]? with
      | some (.kickAgent id user _) =>
          inp.raised ||
            (decide (s.shared.frees (s.shared.recs user).agent = s.shared.drops id) &&
              !s.shared.closes (s.shared.recs user).agent)
      | _ => true

/-- **The first segment of a request.** -/
theorem keeps_direct {s : Pool Data Pc} (h : Load s.shared) {r : Req} {i : Inp}
    (hc : settled s (.call r i) = true) : Keeps s.shared (direct s.shared r) := by
  cases r with
  | assign c => exact keeps_assign h c
  | afk id => exact keeps_afk h id
  | exit id =>
      refine keeps_exit h fun u hu => ?_
      simpa [settled, hu] using hc
  | kick id => exact keeps_kick h id false
  | tryKick id => exact keeps_kick h id true
  | init => exact keeps_initAgent h

/-- **The segments after a yield.** -/
theorem keeps_resume {s : Pool Data Pc} (h : Load s.shared) (hload : 1 ≤ s.shared.load) {k : ℕ}
    {i : Inp} {pc : Pc} (hk : s.cos[k]? = some pc) (hpc : pc.closing = false)
    (hc : settled s (.resume k i) = true) : Keeps s.shared (resume s.shared i pc) := by
  unfold resume
  split
  · exact keeps_ret h _
  · rename_i hraised
    cases pc with
    | newAgent c => exact keeps_assignStarted h hload c
    | surplus c => exact keeps_assignOnto h c
    | agentAssign c user =>
        dsimp only
        split
        · split
          · exact keeps_ret h _
          · exact keeps_ret h _
        · exact keeps_assign h c
    | exitClose id user => simp [Pc.closing] at hpc
    | kickAgent id user try_ =>
        simp only [settled, hk, hraised, Bool.false_or, Bool.and_eq_true, decide_eq_true_eq,
          Bool.not_eq_true'] at hc
        exact keeps_kicked h try_ hc.1 hc.2
    | kickClose id user try_ => simp [Pc.closing] at hpc
    | gateKick id gate force => exact keeps_ret h _
    | initAgent =>
        have hfree := load_startFree h hload
        dsimp only
        split
        · rename_i w' _ heq
          rw [heq] at hfree
          exact ⟨hfree, (congrArg (fun p => p.1.load) heq).symm, by simp [Out.pcs, Pc.closing]⟩
        · rename_i w' heq
          rw [heq] at hfree
          exact ⟨hfree, (congrArg (fun p => p.1.load) heq).symm, by simp [Out.pcs]⟩
    | initClose => exact keeps_ret h _

/-- The watchdog before its first message. -/
def opened (load : ℤ) : Pool Data Pc := ⟨{ load := load }, []⟩

/-- **The accounting holds in every run that meets the condition**: the count of every agent is the
number of users mapped to it, at most `agent_load`, and `free_agent` has closed an agent only when
no user was mapped to it. -/
theorem load_of_settled {load : ℤ} (hload : 1 ≤ load) {s : Pool Data Pc}
    (h : service.Reach (fun s e => settled s e = true) (opened load) s) :
    (∀ a ∈ s.shared.agents,
      a.count = s.shared.mapped a.service ∧ 0 ≤ a.count ∧ a.count ≤ load) ∧
    ∀ p ∈ s.shared.closed, p.2 = 0 := by
  have hinv : Load s.shared ∧ s.shared.load = load ∧ ∀ pc ∈ s.cos, pc.closing = false := by
    refine h.inv (P := fun s => Load s.shared ∧ s.shared.load = load ∧
      ∀ pc ∈ s.cos, pc.closing = false) ?_ ?_
    · exact ⟨⟨List.nodup_nil, by simp [opened], by simp [opened], by simp [opened],
        by simp [opened], by simp [opened]⟩, rfl, by simp [opened]⟩
    · rintro s e s' ⟨hl, hsame, hpcs⟩ hc he
      rcases Machine.exec_cases he with
        ⟨r, i, rfl, rfl⟩ | ⟨k, i, l, pc, r, out, rfl, hk, hcos, ho, rfl⟩
      · have hkeep := keeps_direct hl hc
        refine ⟨hkeep.load, hkeep.same.trans hsame, fun pc hm => ?_⟩
        rcases List.mem_append.1 hm with hm | hm
        · exact hpcs pc hm
        · exact hkeep.pcs pc hm
      · obtain rfl : out = ((resume s.shared i pc).w, (resume s.shared i pc).pcs) :=
          (Option.some_inj.1 ho).symm
        have hkeep := keeps_resume hl (hsame ▸ hload) hk (hpcs pc (by rw [hcos]; simp)) hc
        refine ⟨hkeep.load, hkeep.same.trans hsame, fun pc' hm => ?_⟩
        rw [hcos] at hpcs
        rcases Machine.rest_or_left hm with hm | hm
        · exact hpcs pc' (Machine.mem_of_mem_rest hm)
        · exact hkeep.pcs pc' hm
  obtain ⟨hl, rfl, -⟩ := hinv
  refine ⟨fun a ha => ?_, hl.closed⟩
  have hcount := hl.count a ha
  exact ⟨hcount, by rw [hcount]; exact Int.natCast_nonneg _, hl.le a ha⟩

/-- Two users on one agent. -/
def twoUsers : List (Event Req Inp) :=
  [.call (.assign ⟨1, 7, 11, 21⟩) {}, .resume 0 {}, .resume 0 {},
    .call (.assign ⟨2, 7, 12, 22⟩) {}, .resume 0 {}]

/-- A kick that meets the condition. -/
theorem load_kickOne :
    ∃ s, service.Reach (fun s e => settled s e = true) (opened 64) s ∧
      s.shared.agents = [⟨1, 1⟩] ∧ (1 : ℤ) = s.shared.mapped 1 := by
  obtain ⟨s, hs, hp⟩ := Machine.exists_reach (twoUsers ++ [.call (.tryKick 1) {}, .resume 0 {}])
    (C := fun s e => settled s e = true) (i := opened 64) (M := service)
    (p := fun s => decide (s.shared.agents = [⟨1, 1⟩])) (by decide +kernel)
  have hagents := of_decide_eq_true hp
  exact ⟨s, hs, hagents,
    ((load_of_settled (by decide) hs).1 ⟨1, 1⟩ (by rw [hagents]; simp)).1⟩

/-- **Two kicks of one user free two slots**: the count of the agent is 0 while the other user is
still mapped to it. -/
theorem kick_twice_frees_twice :
    ¬ ∀ (load : ℤ) (s : Pool Data Pc), 1 ≤ load →
      service.Reach (fun _ _ => True) (opened load) s →
        ∀ a ∈ s.shared.agents, a.count = s.shared.mapped a.service := by
  intro hall
  obtain ⟨s, hs, hp⟩ := Machine.exists_reach
    (twoUsers ++ [.call (.tryKick 1) {}, .call (.tryKick 1) {}, .resume 0 {}, .resume 1 {}])
    (C := fun _ _ => True) (i := opened 64) (M := service)
    (p := fun s => decide (s.shared.agents = [⟨1, 0⟩] ∧ s.shared.mapped 1 = 1)) (by decide +kernel)
  obtain ⟨hagents, hmapped⟩ := of_decide_eq_true hp
  have := hall 64 s (by decide) hs ⟨1, 0⟩ (by rw [hagents]; simp)
  dsimp only at this
  omega

end Halieutics.Watchdog
