/-
**Who is in the tables of the services.**

A ban has to reach a user wherever he is entered: in `users` and `cache` of a gate, in `users` of an
agent, and in the records of the watchdog.  Here the handlers of these services are seen from the
tables: which entries a step may add, and which it leaves alone.

Main definitions:

* `Halieutics.Misc.Filed` — the records of a gate stand under their numbers;
* `Halieutics.Misc.Sole`, `Halieutics.Misc.Steady` — a record of the watchdog that belongs to one
  user, and a segment that leaves such records alone.

Main results:

* `Halieutics.Misc.Filed.signin`, `Halieutics.Misc.Filed.kick` — the handlers of a gate keep its
  tables;
* `Halieutics.Misc.lookup_kick` — an agent that kicks a user enters nobody;
* `Halieutics.Misc.steady_direct`, `Halieutics.Misc.steady_resume` — **every segment of the
  watchdog** but that which assigns a user leaves his record alone.
-/

import Halieutics.Misc

set_option relaxedAutoImplicit false
set_option autoImplicit false

namespace Halieutics.Misc

open LuaTable
open Watchdog (Client)

/-! ### The tables of a gate -/

/-- The records of a gate are entered under their numbers, and its cache is empty. -/
structure Filed (d : Gate.Data) : Prop where
  made : ∀ id u, d.users.lookup id = some u → u < d.nobj ∧ (d.objs u).id = id
  cache : ∀ id, d.ucache.lookup id = none

section Gates

variable {d : Gate.Data} {id : ℕ}

theorem filed_empty : Filed {} where
  made := fun _ _ hu => by cases hu
  cache := fun _ => rfl

theorem Filed.login (h : Filed d) (id secret : ℕ) : Filed (d.login id secret) where
  made := by
    intro id' u hu
    have hu : (d.users.insert id d.nobj).lookup id' = some u := hu
    change u < d.nobj + 1 ∧ (Function.update d.objs d.nobj ⟨id, secret, .wait⟩ u).id = id'
    rw [lookup_insert_eq] at hu
    split at hu
    · rename_i heq
      obtain rfl := Option.some_inj.1 hu
      rw [Function.update_self]
      exact ⟨Nat.lt_succ_self _, heq.symm⟩
    · obtain ⟨hlt, hmade⟩ := h.made id' u hu
      rw [Function.update_of_ne (Nat.ne_of_lt hlt)]
      exact ⟨Nat.lt_succ_of_lt hlt, hmade⟩
  cache := by
    intro id'
    change (d.ucache.erase id).lookup id' = none
    rw [lookup_erase_eq]
    split
    · rfl
    · exact h.cache id'

theorem Filed.removeTimer (h : Filed d) (u : Gate.Ref) :
    Filed (d.removeTimer u) := ⟨h.made, h.cache⟩

theorem Filed.setState (h : Filed d) (u : Gate.Ref) (st : Gate.State) :
    Filed (d.setState u st) where
  made := by
    intro id' v hv
    obtain ⟨hlt, hid⟩ := h.made id' v hv
    refine ⟨hlt, ?_⟩
    by_cases huv : v = u
    · rw [huv] at hid ⊢
      simpa [Gate.Data.setState] using hid
    · simpa [Gate.Data.setState, Function.update_of_ne huv] using hid
  cache := h.cache

/-- Users are forgotten. -/
theorem Filed.erase (h : Filed d) (id : ℕ) {c : Table ℕ Gate.Ref} {ts : List Gate.Ref}
    (hc : ∀ id', c.lookup id' = none) :
    Filed { d with users := d.users.erase id, ucache := c, timers := ts } where
  made := by
    intro id' u hu
    have hu : (d.users.erase id).lookup id' = some u := hu
    rw [lookup_erase_eq] at hu
    split at hu
    · cases hu
    · exact h.made id' u hu
  cache := hc

/-- A table from which somebody was erased. -/
theorem lookup_erase_none {t : Table ℕ ℕ} (k : ℕ) (h : t.lookup id = none) :
    (t.erase k).lookup id = none := by
  rw [lookup_erase_eq]
  split
  · rfl
  · exact h

theorem Filed.kick (h : Filed d) {d' : Gate.Data} (hk : d.kick id = some d') :
    Filed d' ∧ d'.users = d.users.erase id := by
  unfold Gate.Data.kick at hk
  split at hk
  · cases hk
  · rename_i u hu
    obtain rfl := Option.some.inj hk
    rw [(h.made id u hu).2]
    exact ⟨h.erase id h.cache, rfl⟩

theorem Filed.timeout (h : Filed d) (u : Gate.Ref) :
    Filed (d.timeout u).1 ∧ ∀ id', d.users.lookup id' = none →
      (d.timeout u).1.users.lookup id' = none := by
  unfold Gate.Data.timeout
  dsimp only
  split
  · exact ⟨h.removeTimer u, fun _ h => h⟩
  · refine ⟨(h.removeTimer u).erase _ fun id' => lookup_erase_none _ (h.cache id'),
      fun id' hid' => ?_⟩
    exact lookup_erase_none _ hid'

/-- **A sign-in finds** the user who is on the gate, if there is one. -/
theorem Filed.signin (h : Filed d) (id secret : ℕ) :
    Filed (d.signin id secret).1 ∧ (d.signin id secret).1.users = d.users ∧
      ∀ u, (d.signin id secret).2 = some u →
        d.users.lookup id = some u ∧ ((d.signin id secret).1.objs u).id = id := by
  rcases Gate.signin_cases h.cache id secret with ⟨hnone, he⟩ | ⟨u, hu, ⟨-, he⟩ | ⟨-, he⟩⟩
  · rw [he]
    exact ⟨h, rfl, fun u hu => by cases hu⟩
  · rw [he]
    exact ⟨h.removeTimer u, rfl, fun v hv => by cases hv⟩
  · rw [he]
    refine ⟨h.removeTimer u, rfl, fun v hv => ?_⟩
    obtain rfl := Option.some.inj hv
    exact ⟨hu, (h.made id u hu).2⟩

end Gates

/-! ### The tables of an agent -/

section Agents

variable {a : Agent.Data} {id : ℕ}

theorem users_assign (a : Agent.Data) (c : Client) : (a.assign c).1.users = a.users := by
  unfold Agent.Data.assign
  split
  · rfl
  · split
    · rfl
    · split <;> rfl

theorem users_gone (a : Agent.Data) (u : Agent.Ref) : (a.gone u).1.users = a.users := by
  unfold Agent.Data.gone
  split
  · rfl
  · split
    · rfl
    · split <;> rfl

theorem lookup_kick (a : Agent.Data) (id id' : ℕ) (clear : Bool) :
    (a.kick id clear).users.lookup id' =
      if clear = true ∧ id' = id then none else a.users.lookup id' := by
  unfold Agent.Data.kick
  cases hu : a.users.lookup id with
  | none =>
      by_cases h : clear = true ∧ id' = id
      · rw [if_pos h, h.2]
        exact hu
      · rw [if_neg h]
  | some u =>
      cases clear with
      | false =>
          simp only [Bool.false_eq_true, if_false, false_and]
          split <;> rfl
      | true =>
          simp only [if_true, true_and]
          rw [← lookup_erase_eq]
          split <;> rfl

end Agents

/-! ### The records of the watchdog -/

/-- The record `u` is that of the user, or of nobody any more. -/
def Sole (id : ℕ) (w : Watchdog.Data) (u : Watchdog.Ref) : Prop :=
  u < w.nrec ∧ ∀ id', w.users.lookup id' = some u → id' = id

/-- **What a segment of the watchdog does to the records**: it leaves the agent and the gate of a
user alone, unless it assigns him. -/
structure Steady (w w' : Watchdog.Data) (who : Option ℕ) : Prop where
  made : w'.Made
  own : w'.Own
  sole : ∀ id u, who ≠ some id → Sole id w u →
    Sole id w' u ∧ (w'.recs u).agent = (w.recs u).agent ∧ (w'.recs u).gate = (w.recs u).gate

section Records

variable {w w' w'' : Watchdog.Data} {who : Option ℕ}

theorem Steady.refl (hm : w.Made) (ho : w.Own) (who : Option ℕ) : Steady w w who :=
  ⟨hm, ho, fun _ _ _ h => ⟨h, rfl, rfl⟩⟩

theorem Steady.trans (h : Steady w w' who) (h' : Steady w' w'' who) : Steady w w'' who where
  made := h'.made
  own := h'.own
  sole id u hid hu := by
    obtain ⟨hs, ha, hg⟩ := h.sole id u hid hu
    obtain ⟨hs', ha', hg'⟩ := h'.sole id u hid hs
    exact ⟨hs', ha'.trans ha, hg'.trans hg⟩

/-- The records are not touched. -/
theorem Steady.same (hm : w.Made) (ho : w.Own) (hu : w'.users = w.users) (hr : w'.recs = w.recs)
    (hn : w.nrec ≤ w'.nrec) (who : Option ℕ) : Steady w w' who where
  made id r h := (hm id r (hu ▸ h)).trans_le hn
  own id id' r h h' := ho id id' r (hu ▸ h) (hu ▸ h')
  sole id u _ h := ⟨⟨h.1.trans_le hn, fun id' hid' => h.2 id' (hu ▸ hid')⟩, by rw [hr], by rw [hr]⟩

theorem steady_freeAgent (hm : w.Made) (ho : w.Own) (agent : ℕ) (who : Option ℕ) :
    Steady w (w.freeAgent agent).1 who := .same hm ho (by rfl) (by rfl) (by rfl) who

/-- The record of a user is changed. -/
theorem steady_setRecord (hm : w.Made) (ho : w.Own) {id : ℕ} {u : Watchdog.Ref}
    (hu : w.users.lookup id = some u) {f : Watchdog.Record → Watchdog.Record}
    (hf : who = some id ∨ ∀ r, (f r).agent = r.agent ∧ (f r).gate = r.gate) :
    Steady w (w.setRecord u f) who where
  made := hm
  own := ho
  sole id' v hid' hv := by
    refine ⟨hv, ?_⟩
    by_cases huv : v = u
    · rcases hf with rfl | hf
      · rw [huv] at hv
        exact absurd (congrArg some (hv.2 id hu)) hid'
      · rw [huv]
        simp [Watchdog.Data.setRecord, hf]
    · simp [Watchdog.Data.setRecord, Function.update_of_ne huv]

theorem steady_enter (hm : w.Made) (ho : w.Own) (c : Client) (agent : ℕ) :
    Steady w (w.enter c agent) (some c.id) where
  made := hm.enter c agent
  own := ho.enter hm c agent
  sole id u hid hu := by
    have hne : u ≠ w.nrec := Nat.ne_of_lt hu.1
    refine ⟨⟨Nat.lt_succ_of_lt hu.1, fun id' hid' => ?_⟩, ?_⟩
    · have hid' : (w.users.insert c.id w.nrec).lookup id' = some u := hid'
      rw [lookup_insert_eq] at hid'
      split at hid'
      · exact absurd (Option.some.inj hid').symm hne
      · exact hu.2 id' hid'
    · simp [Watchdog.Data.enter, Function.update_of_ne hne]

theorem steady_erase (hm : w.Made) (ho : w.Own) (id : ℕ) (who : Option ℕ) :
    Steady w { w with users := w.users.erase id } who where
  made := hm.erase id
  own := ho.erase id
  sole id' u _ hu := by
    refine ⟨⟨hu.1, fun id'' hid'' => ?_⟩, rfl, rfl⟩
    have hid'' : (w.users.erase id).lookup id'' = some u := hid''
    rw [lookup_erase_eq] at hid''
    split at hid''
    · cases hid''
    · exact hu.2 id'' hid''

theorem steady_assign (hm : w.Made) (ho : w.Own) (c : Client) :
    Steady w (Watchdog.assign w c).w (some c.id) := by
  unfold Watchdog.assign
  split
  · rename_i user hu
    dsimp only [Watchdog.Out.w]
    exact steady_setRecord hm ho hu (Or.inl rfl)
  · split
    · rename_i agent agents _
      have h₁ : Steady w { w with agents := agents } (some c.id) :=
        .same hm ho (by rfl) (by rfl) (by rfl) _
      exact h₁.trans (steady_enter h₁.made h₁.own c agent)
    · exact .refl hm ho _

theorem steady_assignOnto (hm : w.Made) (ho : w.Own) (c : Client) :
    Steady w (Watchdog.assignOnto w c).w (some c.id) := by
  unfold Watchdog.assignOnto
  split
  · exact .refl hm ho _
  · rename_i user hu
    dsimp only [Watchdog.Out.w]
    exact steady_setRecord hm ho hu (Or.inl rfl)

theorem steady_assignStarted (hm : w.Made) (ho : w.Own) (c : Client) :
    Steady w (Watchdog.assignStarted w c).w (some c.id) := by
  have h₁ : Steady w w.startAgent.1 (some c.id) := .same hm ho (by rfl) (by rfl) (by rfl) _
  unfold Watchdog.assignStarted
  dsimp only
  split
  · exact h₁.trans (steady_enter h₁.made h₁.own c _)
  · have h₂ := h₁.trans (steady_freeAgent h₁.made h₁.own w.startAgent.2 (some c.id))
    split
    · rename_i w' _ he
      rw [he] at h₂
      exact h₂
    · rename_i w' he
      rw [he] at h₂
      exact h₂.trans (steady_assignOnto h₂.made h₂.own c)

theorem steady_afk (hm : w.Made) (ho : w.Own) (id : ℕ) : Steady w (Watchdog.afk w id).w none := by
  unfold Watchdog.afk
  split
  · exact .refl hm ho _
  · rename_i user hu
    split
    · exact .refl hm ho _
    · dsimp only [Watchdog.Out.w]
      exact steady_setRecord hm ho hu (Or.inr fun _ => ⟨rfl, rfl⟩)

theorem steady_exitDrop (hm : w.Made) (ho : w.Own) (id : ℕ) (user : Watchdog.Ref) :
    Steady w (Watchdog.exitDrop w id user).w none := by
  unfold Watchdog.exitDrop
  dsimp only
  split <;> exact steady_erase hm ho id _

theorem steady_exit (hm : w.Made) (ho : w.Own) (id : ℕ) : Steady w (Watchdog.exit w id).w none := by
  unfold Watchdog.exit
  split
  · exact .refl hm ho _
  · rename_i user hu
    have h₁ := steady_freeAgent hm ho (w.recs user).agent none
    split
    · rename_i w' _ he
      rw [he] at h₁
      exact h₁
    · rename_i w' he
      rw [he] at h₁
      exact h₁.trans (steady_exitDrop h₁.made h₁.own id user)

theorem steady_kick (hm : w.Made) (ho : w.Own) (id : ℕ) (try_ : Bool) :
    Steady w (Watchdog.kick w id try_).w none := by
  unfold Watchdog.kick
  split <;> exact .refl hm ho _

theorem steady_kickDrop (hm : w.Made) (ho : w.Own) (id : ℕ) (user : Watchdog.Ref) (try_ : Bool) :
    Steady w (Watchdog.kickDrop w id user try_).w none := by
  unfold Watchdog.kickDrop
  dsimp only
  split <;> exact steady_erase hm ho id _

theorem steady_kicked (hm : w.Made) (ho : w.Own) (id : ℕ) (user : Watchdog.Ref) (try_ : Bool) :
    Steady w (Watchdog.kicked w id user try_).w none := by
  have h₁ := steady_freeAgent hm ho (w.recs user).agent none
  unfold Watchdog.kicked
  split
  · rename_i w' _ he
    rw [he] at h₁
    exact h₁
  · rename_i w' he
    rw [he] at h₁
    exact h₁.trans (steady_kickDrop h₁.made h₁.own id user try_)

theorem steady_initAgent (hm : w.Made) (ho : w.Own) : Steady w (Watchdog.initAgent w).w none := by
  unfold Watchdog.initAgent
  split
  · exact .refl hm ho _
  · rename_i agent agents _
    have h₁ : Steady w { w with agents := agents } none := .same hm ho (by rfl) (by rfl) (by rfl) _
    have h₂ := h₁.trans (steady_freeAgent h₁.made h₁.own agent none)
    split
    all_goals
      rename_i he
      rw [he] at h₂
      exact h₂

/-- Nobody is assigned but the user who was. -/
theorem assigned_assign (w : Watchdog.Data) (c : Client) :
    ∀ pc ∈ (Watchdog.assign w c).pcs, assigned pc = some c.id := by
  unfold Watchdog.assign
  split
  · simp [Watchdog.Out.pcs, assigned]
  · split <;> simp [Watchdog.Out.pcs, assigned]

theorem assigned_assignOnto (w : Watchdog.Data) (c : Client) :
    ∀ pc ∈ (Watchdog.assignOnto w c).pcs, assigned pc = some c.id := by
  unfold Watchdog.assignOnto
  split <;> simp [Watchdog.Out.pcs, assigned]

theorem assigned_assignStarted (w : Watchdog.Data) (c : Client) :
    ∀ pc ∈ (Watchdog.assignStarted w c).pcs, assigned pc = some c.id := by
  unfold Watchdog.assignStarted
  dsimp only
  split
  · simp [Watchdog.Out.pcs, assigned]
  · split
    · simp [Watchdog.Out.pcs, assigned]
    · exact assigned_assignOnto _ c

theorem assigned_exitDrop (w : Watchdog.Data) (id : ℕ) (user : Watchdog.Ref) :
    ∀ pc ∈ (Watchdog.exitDrop w id user).pcs, assigned pc = none := by
  unfold Watchdog.exitDrop
  dsimp only
  split <;> simp [Watchdog.Out.pcs, assigned]

theorem assigned_kickDrop (w : Watchdog.Data) (id : ℕ) (user : Watchdog.Ref) (try_ : Bool) :
    ∀ pc ∈ (Watchdog.kickDrop w id user try_).pcs, assigned pc = none := by
  unfold Watchdog.kickDrop
  dsimp only
  split <;> simp [Watchdog.Out.pcs, assigned]

/-- The user whom a request assigns. -/
def requested : Watchdog.Req → Option ℕ
  | .assign c => some c.id
  | _ => none

theorem steady_direct (hm : w.Made) (ho : w.Own) (r : Watchdog.Req) :
    Steady w (Watchdog.direct w r).w (requested r) := by
  cases r with
  | assign c => exact steady_assign hm ho c
  | afk id => exact steady_afk hm ho id
  | exit id => exact steady_exit hm ho id
  | kick id => exact steady_kick hm ho id false
  | tryKick id => exact steady_kick hm ho id true
  | init => exact steady_initAgent hm ho

theorem steady_resume (hm : w.Made) (ho : w.Own) (inp : Watchdog.Inp) (pc : Watchdog.Pc) :
    Steady w (Watchdog.resume w inp pc).w (assigned pc) := by
  unfold Watchdog.resume
  split
  · exact .refl hm ho _
  · cases pc with
    | newAgent c => exact steady_assignStarted hm ho c
    | surplus c => exact steady_assignOnto hm ho c
    | agentAssign c u =>
        dsimp only
        split
        · split <;> exact .refl hm ho _
        · exact steady_assign hm ho c
    | exitClose id u => exact steady_exitDrop hm ho id u
    | kickAgent id u try_ => exact steady_kicked hm ho id u try_
    | kickClose id u try_ => exact steady_kickDrop hm ho id u try_
    | gateKick id gate force => exact .refl hm ho _
    | initAgent =>
        have h₁ : Steady w w.startAgent.1 none := .same hm ho (by rfl) (by rfl) (by rfl) _
        have h₂ := h₁.trans (steady_freeAgent h₁.made h₁.own w.startAgent.2 none)
        dsimp only
        split
        all_goals
          rename_i he
          rw [he] at h₂
          exact h₂
    | initClose => exact .refl hm ho _

theorem assigned_direct (w : Watchdog.Data) (r : Watchdog.Req) :
    ∀ pc ∈ (Watchdog.direct w r).pcs, assigned pc = requested r := by
  cases r with
  | assign c => exact assigned_assign w c
  | afk id =>
      change ∀ pc ∈ (Watchdog.afk w id).pcs, assigned pc = none
      unfold Watchdog.afk
      split
      · simp [Watchdog.Out.pcs]
      · split <;> simp [Watchdog.Out.pcs, assigned]
  | exit id =>
      change ∀ pc ∈ (Watchdog.exit w id).pcs, assigned pc = none
      unfold Watchdog.exit
      split
      · simp [Watchdog.Out.pcs]
      · split
        · simp [Watchdog.Out.pcs, assigned]
        · exact assigned_exitDrop _ id _
  | kick id | tryKick id =>
      change ∀ pc ∈ (Watchdog.kick w id _).pcs, assigned pc = none
      unfold Watchdog.kick
      split <;> simp [Watchdog.Out.pcs, assigned]
  | init =>
      change ∀ pc ∈ (Watchdog.initAgent w).pcs, assigned pc = none
      unfold Watchdog.initAgent
      split
      · simp [Watchdog.Out.pcs, assigned]
      · split <;> simp [Watchdog.Out.pcs, assigned]

theorem assigned_resume (w : Watchdog.Data) (inp : Watchdog.Inp) (pc : Watchdog.Pc) :
    ∀ pc' ∈ (Watchdog.resume w inp pc).pcs, assigned pc' = assigned pc := by
  unfold Watchdog.resume
  split
  · simp [Watchdog.Out.pcs]
  · cases pc with
    | newAgent c => exact assigned_assignStarted w c
    | surplus c => exact assigned_assignOnto w c
    | agentAssign c u =>
        dsimp only
        split
        · split <;> simp [Watchdog.Out.pcs]
        · exact assigned_assign w c
    | exitClose id u => exact assigned_exitDrop w id u
    | kickAgent id u try_ =>
        change ∀ pc ∈ (Watchdog.kicked w id u try_).pcs, assigned pc = none
        unfold Watchdog.kicked
        split
        · simp [Watchdog.Out.pcs, assigned]
        · exact assigned_kickDrop _ id u try_
    | kickClose id u try_ => exact assigned_kickDrop w id u try_
    | gateKick id gate force => simp [Watchdog.Out.pcs]
    | initAgent =>
        dsimp only
        split <;> simp [Watchdog.Out.pcs, assigned]
    | initClose => simp [Watchdog.Out.pcs]

end Records

end Halieutics.Misc
