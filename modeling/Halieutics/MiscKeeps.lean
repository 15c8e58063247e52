/-
**What the services do to a user who has been banned.**

Every segment of every service is seen from one user: whether it takes him to a gate or to an agent,
whether it clears the flag of his account, and how it ends.  Only three kinds of segments can let
him in: those that log him in, those that sign him in, and those that lift his ban.

Main definitions:

* `Halieutics.Misc.Shrinks` — a segment takes the user to no gate and to no agent;
* `Halieutics.Misc.Left` — where the user may still be, while he is being kicked;
* `Halieutics.Misc.Moves`, `Halieutics.Misc.Harmless`, `Halieutics.Misc.Keeps` — **what a segment
  does to the services, and how it ends**.

Main results:

* `Halieutics.Misc.keeps_serve` — the handlers of all requests but those that ban or let in;
* `Halieutics.Misc.keeps_resume` — the segments after their calls.
-/

import Halieutics.MiscTables

set_option relaxedAutoImplicit false
set_option autoImplicit false

namespace Halieutics.Misc

open Coroutine LuaTable
open Watchdog (Client)

/-! ### What a segment does to a user -/

/-- The tables are in order. -/
structure Fits (w : World) : Prop where
  gates : ∀ g, Filed (w.gate g)
  made : w.wd.Made
  own : w.wd.Own
  stored : ∃ accounts, Accdb.Stored w.accounts accounts
  counted : Accdb.Counted w.accounts

/-- The flag is set. -/
def Flagged (E : Env) (id : ℕ) (w : World) : Prop :=
  ∃ base, Accdb.BaseOf E.toEnv w.accounts id base ∧ base.forbidden = true

/-- Where the user may be: on no gate and no agent but these. -/
structure Left (id : ℕ) (w : World) (agent gate : Option ℕ) : Prop where
  agents : ∀ a, agent ≠ some a → (w.agent a).users.lookup id = none
  gates : ∀ g, gate ≠ some g → (w.gate g).users.lookup id = none

/-- **A segment takes the user to no gate and to no agent**, and leaves his record alone. -/
structure Shrinks (id : ℕ) (w w' : World) : Prop where
  agents : ∀ a, (w.agent a).users.lookup id = none → (w'.agent a).users.lookup id = none
  gates : ∀ g, (w.gate g).users.lookup id = none → (w'.gate g).users.lookup id = none
  recs : ∀ u, Sole id w.wd u → Sole id w'.wd u ∧
    (w'.wd.recs u).agent = (w.wd.recs u).agent ∧ (w'.wd.recs u).gate = (w.wd.recs u).gate

/-- The user has signed in on a socket. -/
def SignedIn (id : ℕ) (w : World) (g fd : ℕ) : Prop := (Frame.reading g fd).signs id w = true

/-- **What a segment does to the services**, if it logs the user in (`en`), signs him in (`si`) or
lifts his ban (`li`), and if it does not. -/
structure Moves (E : Env) (id : ℕ) (w w' : World) (en si li : Bool) : Prop where
  fits : Fits w'
  bases : ∀ id', (∃ base, Accdb.BaseOf E.toEnv w.accounts id' base) →
    ∃ base, Accdb.BaseOf E.toEnv w'.accounts id' base
  flag : li = false → Flagged E id w → Flagged E id w'
  shrinks : en = false → si = false → Shrinks id w w'
  socks : en = false → si = false → Left id w none none →
    ∀ g fd, SignedIn id w' g fd → SignedIn id w g fd
  barred : w'.barred id = w.barred id
  signins : ∀ e ∈ w'.signins, e ∈ w.signins ∨ e.2 = w.barred e.1 ∧
    (en = false → si = false → Left id w none none → e.1 ≠ id)

/-- `misc.blacklist` is called for the user. -/
def Frame.bans (id : ℕ) : Frame → Bool
  | .flagging id' | .kicking id' => id' == id
  | _ => false

def Req.bans (id : ℕ) : Req → Bool
  | .blacklist id' => id' == id
  | _ => false

/-- `refreshbase` is called for an account that there is. -/
def Frame.Writes (E : Env) (w : World) : Frame → Prop
  | .accWrite id _ => ∃ base, Accdb.BaseOf E.toEnv w.accounts id base
  | _ => True

/-- **How a segment ends**: it logs nobody in whom it has not logged in, and so on. -/
structure Harmless (E : Env) (id : ℕ) (w : World) (en si li : Bool) (o : Out) : Prop where
  enters : en = false → Flagged E id w →
    ¬ o.Is (fun f => f.enters id = true) (fun q => q.enters id = true) fun a => a.enters id = true
  signs : en = false → si = false → Left id w none none →
    ¬ o.Is (fun f => f.signs id o.state = true) (fun q => q.signs id = true) fun _ => False
  lifts : li = false →
    ¬ o.Is (fun f => f.lifts id = true) (fun q => q.lifts id = true) fun _ => False
  bans : ¬ o.Is (fun f => f.bans id = true) (fun q => q.bans id = true) fun _ => False
  writes : ∀ f q, o.ends = .call f q → f.Writes E o.state

/-- What a segment does, and how it ends. -/
structure Keeps (E : Env) (id : ℕ) (w : World) (en si li : Bool) (o : Out) : Prop where
  moves : Moves E id w o.state en si li
  harmless : Harmless E id w en si li o

section Moves

variable {E : Env} {id : ℕ} {w w' : World} {en si li : Bool}

theorem moves_refl (h : Fits w) : Moves E id w w en si li where
  fits := h
  bases _ hb := hb
  flag _ hf := hf
  shrinks _ _ := ⟨fun _ h => h, fun _ h => h, fun _ h => ⟨h, rfl, rfl⟩⟩
  socks _ _ _ _ _ h := h
  barred := rfl
  signins _ h := Or.inl h

theorem moves_login (h : Fits w) (l : Login.Server) :
    Moves E id w { w with login := l } en si li :=
  { (moves_refl h : Moves E id w w en si li) with
    fits := ⟨h.gates, h.made, h.own, h.stored, h.counted⟩
    shrinks := fun _ _ => ⟨fun _ ha => ha, fun _ hg => hg, fun _ hu => ⟨hu, rfl, rfl⟩⟩ }

/-- A socket is opened. -/
theorem moves_nsock (h : Fits w) (n : ℕ → ℕ) : Moves E id w { w with nsock := n } en si li :=
  { (moves_refl h : Moves E id w w en si li) with
    fits := ⟨h.gates, h.made, h.own, h.stored, h.counted⟩
    shrinks := fun _ _ => ⟨fun _ ha => ha, fun _ hg => hg, fun _ hu => ⟨hu, rfl, rfl⟩⟩ }

/-- An agent is closed. -/
theorem moves_closed (h : Fits w) (l : List ℕ) : Moves E id w { w with closed := l } en si li :=
  { (moves_refl h : Moves E id w w en si li) with
    fits := ⟨h.gates, h.made, h.own, h.stored, h.counted⟩
    shrinks := fun _ _ => ⟨fun _ ha => ha, fun _ hg => hg, fun _ hu => ⟨hu, rfl, rfl⟩⟩ }

/-- Another user is banned, or let in again. -/
theorem moves_bar (h : Fits w) {id' : ℕ} (hid : id' ≠ id) (b : Bool) :
    Moves E id w (w.bar id' b) en si li :=
  { (moves_refl h : Moves E id w w en si li) with
    fits := ⟨h.gates, h.made, h.own, h.stored, h.counted⟩
    shrinks := fun _ _ => ⟨fun _ ha => ha, fun _ hg => hg, fun _ hu => ⟨hu, rfl, rfl⟩⟩
    barred := Function.update_of_ne (Ne.symm hid) _ _ }

@[simp] theorem gate_setGate (w : World) (g g' : ℕ) (d : Gate.Data) :
    (w.setGate g d).gate g' = if g' = g then d else w.gate g' := by
  unfold World.setGate World.gate
  rw [lookup_insert_eq]
  split <;> rfl

@[simp] theorem agent_setAgent (w : World) (a a' : ℕ) (d : Agent.Data) :
    (w.setAgent a d).agent a' = if a' = a then d else w.agent a' := by
  unfold World.setAgent World.agent
  rw [lookup_insert_eq]
  split <;> rfl

/-- A gate changes its tables. -/
theorem moves_gate (h : Fits w) {g : ℕ} {d : Gate.Data} (hd : Filed d)
    (hid : en = false → (w.gate g).users.lookup id = none → d.users.lookup id = none) :
    Moves E id w (w.setGate g d) en si li :=
  { (moves_refl h : Moves E id w w en si li) with
    fits := by
      refine ⟨fun g' => ?_, h.made, h.own, h.stored, h.counted⟩
      rw [gate_setGate]
      split
      · exact hd
      · exact h.gates g'
    shrinks := by
      intro he _
      refine ⟨fun _ ha => ha, fun g' hg => ?_, fun _ hu => ⟨hu, rfl, rfl⟩⟩
      rw [gate_setGate]
      split
      · rename_i heq
        exact hid he (heq ▸ hg)
      · exact hg }

/-- An agent changes its tables. -/
theorem moves_agent (h : Fits w) {a : ℕ} {d : Agent.Data}
    (hid : si = false → (w.agent a).users.lookup id = none → d.users.lookup id = none) :
    Moves E id w (w.setAgent a d) en si li :=
  { (moves_refl h : Moves E id w w en si li) with
    fits := ⟨h.gates, h.made, h.own, h.stored, h.counted⟩
    shrinks := by
      intro _ hs
      refine ⟨fun a' ha => ?_, fun _ hg => hg, fun _ hu => ⟨hu, rfl, rfl⟩⟩
      rw [agent_setAgent]
      split
      · rename_i heq
        exact hid hs (heq ▸ ha)
      · exact ha }

/-- The watchdog changes its tables. -/
theorem moves_wd (h : Fits w) {d : Watchdog.Data} {who : Option ℕ} (hd : Steady w.wd d who)
    (hid : si = false → who ≠ some id) : Moves E id w { w with wd := d } en si li :=
  { (moves_refl h : Moves E id w w en si li) with
    fits := ⟨h.gates, hd.made, hd.own, h.stored, h.counted⟩
    shrinks := fun _ hs => ⟨fun _ ha => ha, fun _ hg => hg, fun u hu => hd.sole id u (hid hs) hu⟩ }

/-- The accounts change. -/
theorem moves_accounts (h : Fits w) {r : Redis.Store} (hs : ∃ accounts, Accdb.Stored r accounts)
    (hc : Accdb.Counted r)
    (hb : ∀ id', (∃ base, Accdb.BaseOf E.toEnv w.accounts id' base) →
      ∃ base, Accdb.BaseOf E.toEnv r id' base)
    (hf : li = false → Flagged E id w → Flagged E id { w with accounts := r }) :
    Moves E id w { w with accounts := r } en si li :=
  { (moves_refl h : Moves E id w w en si li) with
    fits := ⟨h.gates, h.made, h.own, hs, hc⟩
    bases := hb
    flag := hf
    shrinks := fun _ _ => ⟨fun _ ha => ha, fun _ hg => hg, fun _ hu => ⟨hu, rfl, rfl⟩⟩ }

theorem signedIn_setSock {g fd g' fd' : ℕ} {f : Sock → Sock} :
    SignedIn id (w.setSock g fd f) g' fd' ↔
      if g' = g ∧ fd' = fd then
        (f (w.socks g fd)).login = true ∧ ∃ s, (f (w.socks g fd)).user = some (id, s)
      else SignedIn id w g' fd' := by
  have hiff : ∀ c : Sock, (c.login && c.user.any fun user => user.1 == id) = true ↔
      c.login = true ∧ ∃ s, c.user = some (id, s) := by
    intro c
    rcases c with ⟨exit, _ | ⟨id', s⟩, login⟩ <;> simp
  by_cases h : g' = g ∧ fd' = fd
  · rw [if_pos h, h.1, h.2, ← hiff]
    simp [SignedIn, Frame.signs, World.setSock]
  · rw [if_neg h]
    have hs : (w.setSock g fd f).socks g' fd' = w.socks g' fd' := by
      by_cases hg : g' = g
      · have hfd : fd' ≠ fd := fun he => h ⟨hg, he⟩
        simp [World.setSock, hg, Function.update_of_ne hfd]
      · simp [World.setSock, Function.update_of_ne hg]
    rw [SignedIn, SignedIn, Frame.signs, Frame.signs, hs]

/-- A socket changes, but nobody signs in. -/
theorem moves_sock (h : Fits w) {g fd : ℕ} {f : Sock → Sock}
    (hf : (f (w.socks g fd)).login = true → ∀ s, (f (w.socks g fd)).user = some (id, s) →
      (w.socks g fd).login = true ∧ (w.socks g fd).user = some (id, s)) :
    Moves E id w (w.setSock g fd f) en si li :=
  { (moves_refl h : Moves E id w w en si li) with
    fits := ⟨h.gates, h.made, h.own, h.stored, h.counted⟩
    shrinks := fun _ _ => ⟨fun _ ha => ha, fun _ hg => hg, fun _ hu => ⟨hu, rfl, rfl⟩⟩
    socks := by
      intro _ _ _ g' fd' hs
      rw [signedIn_setSock] at hs
      split at hs
      · rename_i heq
        obtain ⟨hl, s, hu⟩ := hs
        obtain ⟨hl', hu'⟩ := hf hl s hu
        rw [heq.1, heq.2]
        simp [SignedIn, Frame.signs, hl', hu']
      · exact hs }

/-- One change after the other. -/
theorem Moves.trans {w₁ : World} (h : Moves E id w w₁ en si li) (h' : Moves E id w₁ w' en si li)
    (hb : w₁.barred = w.barred) : Moves E id w w' en si li := by
  have hleft : en = false → si = false → Left id w none none → Left id w₁ none none :=
    fun he hs hl => ⟨fun a ha => (h.shrinks he hs).agents a (hl.agents a ha),
      fun g hg => (h.shrinks he hs).gates g (hl.gates g hg)⟩
  refine ⟨h'.fits, fun id' hb => h'.bases id' (h.bases id' hb),
    fun hl hf => h'.flag hl (h.flag hl hf), fun he hs => ?_, fun he hs hl g fd hg => ?_,
    h'.barred.trans h.barred, fun e hmem => ?_⟩
  · have h₁ := h.shrinks he hs
    have h₂ := h'.shrinks he hs
    refine ⟨fun a ha => h₂.agents a (h₁.agents a ha), fun g hg => h₂.gates g (h₁.gates g hg),
      fun u hu => ?_⟩
    obtain ⟨hu₁, ha₁, hg₁⟩ := h₁.recs u hu
    obtain ⟨hu₂, ha₂, hg₂⟩ := h₂.recs u hu₁
    exact ⟨hu₂, ha₂.trans ha₁, hg₂.trans hg₁⟩
  · exact h.socks he hs hl g fd (h'.socks he hs (hleft he hs hl) g fd hg)
  · rcases h'.signins e hmem with hmem | ⟨hbar, hne⟩
    · exact h.signins e hmem
    · exact Or.inr ⟨hb ▸ hbar, fun he hs hl => hne he hs (hleft he hs hl)⟩

end Moves

section Outs

variable {E : Env} {id : ℕ} {w w' : World} {en si li : Bool}

@[simp] theorem is_done {pF : Frame → Prop} {pQ : Req → Prop} {pA : Ans → Prop} {ans : Ans} :
    (done w ans).Is pF pQ pA ↔ pA ans := by
  simp [done, Served.Is, Ends.Is]

@[simp] theorem is_call {pF : Frame → Prop} {pQ : Req → Prop} {pA : Ans → Prop}
    {f : Frame} {q : Req} :
    (call w f q).Is pF pQ pA ↔ pF f ∨ pQ q := by
  simp [call, Served.Is, Ends.Is]

@[simp] theorem state_done (w : World) (ans : Ans) : (done w ans).state = w := rfl

@[simp] theorem state_call (w : World) (f : Frame) (q : Req) : (call w f q).state = w := rfl

/-- A segment that returns. -/
theorem harmless_done {ans : Ans} (he : en = false → Flagged E id w → ans.enters id = false) :
    Harmless E id w en si li (done w' ans) where
  enters hen hf := by simp [he hen hf]
  signs _ _ _ := by simp
  lifts _ := by simp
  bans := by simp
  writes := fun f q he => by cases he

/-- A segment that calls. -/
theorem harmless_call {f : Frame} {q : Req}
    (he : en = false → Flagged E id w → f.enters id = false ∧ q.enters id = false)
    (hs : en = false → si = false → Left id w none none → f.signs id w' = false ∧
    q.signs id = false)
    (hl : li = false → f.lifts id = false ∧ q.lifts id = false)
    (hb : f.bans id = false ∧ q.bans id = false) (hw : f.Writes E w') :
    Harmless E id w en si li (call w' f q) where
  enters hen hf := by simp [he hen hf]
  signs hen hsi hleft := by simp [hs hen hsi hleft]
  lifts hli := by simp [hl hli]
  bans := by simp [hb]
  writes := fun f' q' he => by
    obtain ⟨rfl, rfl⟩ := Ends.call.inj he
    exact hw

/-- A segment that returns without doing anything. -/
theorem keeps_done (h : Fits w) {ans : Ans}
    (he : en = false → Flagged E id w → ans.enters id = false) :
    Keeps E id w en si li (done w ans) := ⟨moves_refl h, harmless_done he⟩

/-! ### The login service and the accounts -/

/-- The user of a login. -/
def user? : Login.Pc → Option ℕ
  | .handshake _ _ => none
  | .tryKick _ _ id | .gateLogin id _ => some id

theorem keeps_loginOut (h : Fits w) (user : Auth.User) {o : Login.Out}
    (ho : ∀ pc ∈ o.pcs, en = false → Flagged E id w → user? pc ≠ some id) :
    Keeps E id w en si li (loginOut E w user o) := by
  unfold loginOut
  split
  · rename_i l app platform id'
    refine ⟨moves_login h l, harmless_call (fun hen hf => ?_) ?_ ?_ ?_ trivial⟩
    · have hne := ho _ (List.mem_singleton.2 rfl) hen hf
      simp only [user?, ne_eq, Option.some.injEq] at hne
      simp [Frame.enters, Req.enters, hne]
    all_goals simp [Frame.signs, Req.signs, Frame.lifts, Req.lifts, Frame.bans, Req.bans]
  · rename_i l id' g
    refine ⟨moves_login h l, harmless_call (fun hen hf => ?_) ?_ ?_ ?_ trivial⟩
    · have hne := ho _ (List.mem_singleton.2 rfl) hen hf
      simp only [user?, ne_eq, Option.some.injEq] at hne
      simp [Frame.enters, Req.enters, hne]
    all_goals simp [Frame.signs, Req.signs, Frame.lifts, Req.lifts, Frame.bans, Req.bans]
  · exact ⟨moves_login h _, harmless_done fun _ _ => rfl⟩

theorem user_loginAssign (l : Login.Server) (app platform : String) (id : ℕ) :
    ∀ pc ∈ (Login.loginAssign l app platform id).pcs, user? pc = some id := by
  unfold Login.loginAssign
  split <;> simp [Login.Out.pcs, user?]

/-- **Whoever is in the blacklist is not let in.** -/
theorem user_handshake (l : Login.Server) (app platform : String) (u : Auth.User) :
    ∀ pc ∈ (Login.resume l { auth := .user u.id u.forbidden } (.handshake app platform)).pcs,
      user? pc = some u.id ∧ u.forbidden = false := by
  intro pc hpc
  simp only [Login.resume] at hpc
  split at hpc
  · exact absurd hpc (by simp [Login.Out.pcs])
  · rename_i hf
    refine ⟨?_, by simpa using hf⟩
    split at hpc
    · obtain rfl := List.mem_singleton.1 hpc
      rfl
    · exact user_loginAssign _ _ _ _ pc hpc

theorem user_resume (l : Login.Server) (raised : Bool) (pc : Login.Pc) :
    ∀ pc' ∈ (Login.resume l { raised := raised } pc).pcs,
      user? pc' = user? pc ∧ ∃ app platform id, pc = .tryKick app platform id := by
  intro pc' hpc'
  cases pc with
  | handshake app platform => exact absurd hpc' (by simp [Login.resume, Login.Out.pcs])
  | tryKick app platform id =>
      simp only [Login.resume] at hpc'
      split at hpc'
      · exact absurd hpc' (by simp [Login.Out.pcs])
      · exact ⟨user_loginAssign _ _ _ _ pc' hpc', _, _, _, rfl⟩
  | gateLogin id g => exact absurd hpc' (by simp [Login.resume, Login.Out.pcs])

/-- **A handshake goes on.** -/
theorem keeps_authOut (h : Fits w) {pc : Auth.Pc} {out : Auth.Db × List Auth.Pc}
    (hr : Auth.Reads E.toEnv ⟨w.accounts, []⟩ out.1 pc out.2)
    (hen : en = false → (Frame.auth pc).enters id = false) :
    Keeps E id w en si li (authOut w out) := by
  obtain ⟨d, l⟩ := out
  have hflag : Flagged E id w → Flagged E id { w with accounts := d.store } := fun ⟨base, hb, hf⟩ =>
    ⟨base, hr.keeps id base hb, hf⟩
  -- a base of the user that is not forbidden has been carried before
  have hbase : ∀ base, en = false → Flagged E id w →
      pc.base? = some (id, base) ∨ Accdb.BaseOf E.toEnv d.store id base →
      base.forbidden = true := by
    rintro base he hf (hb | hb)
    · have := hen he
      simpa [Frame.enters, hb] using this
    · obtain ⟨base', hb', hf'⟩ := hflag hf
      rw [hb.unique hb']
      exact hf'
  have hm : Moves E id w { w with accounts := d.store } en si li :=
    moves_accounts h hr.stored hr.counted (fun id' ⟨base, hb⟩ => ⟨base, hr.keeps id' base hb⟩)
      fun _ => hflag
  cases l with
  | nil =>
      refine ⟨hm, harmless_done fun he hf => ?_⟩
      split
      · rename_i k user rest hh
        have hret := hr.returns k user (by rw [hh]; exact List.mem_cons_self)
        rcases hret with hret | ⟨base, hb, hret⟩
        · exact absurd hret List.not_mem_nil
        · by_cases hid : user.id = id
          · rw [hid] at hret
            simp [Ans.enters, ← hb, hbase base he hf hret]
          · simp [Ans.enters, hid]
      · rfl
  | cons pc' l =>
      refine ⟨hm, harmless_call (fun he hf => ⟨?_, rfl⟩) ?_ ?_ ?_ trivial⟩
      · cases hb : pc'.base? with
        | none => simp [Frame.enters, hb]
        | some e =>
            by_cases hid : e.1 = id
            · have hc := hr.carries pc' List.mem_cons_self e hb
              obtain ⟨id', base⟩ := e
              obtain rfl := hid
              simp [Frame.enters, hb, hbase base he hf hc]
            · simp [Frame.enters, hb, hid]
      all_goals simp [Frame.signs, Req.signs, Frame.lifts, Req.lifts, Frame.bans, Req.bans]

theorem keeps_handshake (h : Fits w) (r : Auth.Req) :
    Keeps E id w en si li (authOut w (Auth.handshake ⟨w.accounts, []⟩ r)) := by
  obtain ⟨accounts, hs⟩ := h.stored
  obtain ⟨hd, hl⟩ := Auth.handshake_cases ⟨w.accounts, []⟩ r
  suffices hr : Auth.Reads E.toEnv ⟨w.accounts, []⟩ (Auth.handshake ⟨w.accounts, []⟩ r).1 .auth
      (Auth.handshake ⟨w.accounts, []⟩ r).2 from
    keeps_authOut h hr fun _ => by simp [Frame.enters, Auth.Pc.base?]
  rw [hd]
  refine Auth.Reads.silent hs h.counted fun pc hpc => ?_
  rcases hl with hl | hl | ⟨a, hl⟩
  · rw [hl] at hpc
    exact absurd hpc List.not_mem_nil
  all_goals
    rw [hl] at hpc
    obtain rfl := List.mem_singleton.1 hpc
    rfl

/-! ### The gates -/

/-- A call that has nothing to do with the user. -/
theorem harmless_logout (g g' id' : ℕ) :
    Harmless E id w en si li (call w' (.logout g) (.logout g' id')) :=
  harmless_call (by simp [Frame.enters, Req.enters]) (by simp [Frame.signs, Req.signs])
    (by simp [Frame.lifts, Req.lifts]) (by simp [Frame.bans, Req.bans]) trivial

theorem keeps_enter (h : Fits w) (g id' secret : ℕ) (hid : en = false → id' ≠ id) :
    Keeps E id w en si li (enter w g id' secret) := by
  refine ⟨moves_gate h ((h.gates g).login id' secret) fun he hnone => ?_,
    harmless_done fun _ _ => rfl⟩
  change ((w.gate g).users.insert id' (w.gate g).nobj).lookup id = none
  rw [lookup_insert_eq, if_neg fun heq => hid he heq.symm]
  exact hnone

theorem keeps_gateKick (h : Fits w) (g id' : ℕ) : Keeps E id w en si li (gateKick w g id') := by
  unfold gateKick
  split
  · exact keeps_done h fun _ _ => rfl
  · rename_i d hd
    obtain ⟨hf, hu⟩ := (h.gates g).kick hd
    refine ⟨moves_gate h hf fun _ hnone => ?_, harmless_logout g g id'⟩
    rw [hu]
    exact lookup_erase_none id' hnone

theorem keeps_timeout (h : Fits w) (g : ℕ) (u : Gate.Ref) :
    Keeps E id w en si li (timeout w g u) := by
  obtain ⟨hf, hu⟩ := (h.gates g).timeout u
  unfold timeout
  split
  · split
    · rename_i d hd
      rw [hd] at hf hu
      exact ⟨moves_gate h hf fun _ => hu id, harmless_done fun _ _ => rfl⟩
    · rename_i d id' hd
      rw [hd] at hf hu
      exact ⟨moves_gate h hf fun _ => hu id, harmless_logout g g id'⟩
  · exact keeps_done h fun _ _ => rfl

theorem moves_setState (h : Fits w) (g : ℕ) (u : Gate.Ref) (st : Gate.State) :
    Moves E id w (w.setGate g ((w.gate g).setState u st)) en si li :=
  moves_gate h ((h.gates g).setState u st) fun _ hnone => hnone

/-- **A sign-in succeeds.** -/
theorem keeps_signed (h : Fits w) (g fd : ℕ) (u : Gate.Ref) (user : ℕ × ℕ)
    (hid : en = false → si = false → Left id w none none → user.1 ≠ id) :
    Keeps E id w en si li (signed w g fd u user) := by
  refine ⟨?_, harmless_done fun _ _ => rfl⟩
  have h₁ : Moves E id w (w.setGate g ((w.gate g).setState u .ok)) en si li :=
    moves_setState h g u .ok
  refine ⟨⟨h₁.fits.gates, h₁.fits.made, h₁.fits.own, h₁.fits.stored, h₁.fits.counted⟩,
    h₁.bases, h₁.flag,
    fun he hs => ?_, fun he hs hl g' fd' hin => ?_, rfl, fun e hmem => ?_⟩
  · exact ⟨(h₁.shrinks he hs).agents, (h₁.shrinks he hs).gates, (h₁.shrinks he hs).recs⟩
  · have hin : SignedIn id ((w.setGate g ((w.gate g).setState u .ok)).setSock g fd fun c =>
      { c with user := some user, login := true }) g' fd' := hin
    rw [signedIn_setSock] at hin
    split at hin
    · obtain ⟨-, s, hs'⟩ := hin
      exact absurd (congrArg Prod.fst (Option.some.inj hs')) (hid he hs hl)
    · exact hin
  · rcases List.mem_cons.1 hmem with rfl | hmem
    · exact Or.inr ⟨rfl, hid⟩
    · exact Or.inl hmem

/-- **A sign-in needs a user on the gate.** -/
theorem keeps_signin (h : Fits w) (g fd id' secret : ℕ) :
    Keeps E id w en si li (signin w g fd id' secret) := by
  obtain ⟨hf, hu, hfound⟩ := (h.gates g).signin id' secret
  have hm : Moves E id w (w.setGate g ((w.gate g).signin id' secret).1) en si li :=
    moves_gate h hf fun _ hnone => by rwa [hu]
  unfold signin
  split
  · rename_i d hd
    rw [hd] at hm
    exact ⟨hm, harmless_done fun _ _ => rfl⟩
  · rename_i d u hd
    rw [hd] at hm hfound
    obtain ⟨hlook, hid'⟩ := hfound u rfl
    -- the user who is on the gate is another one
    have hne : Left id w none none → (d.objs u).id ≠ id := by
      intro hl heq
      have hnone := hl.gates g (by simp)
      rw [← heq, hid', hlook] at hnone
      cases hnone
    dsimp only
    split
    · refine ⟨hm, harmless_call (by simp [Frame.enters, Req.enters]) (fun _ _ hl => ?_)
        (by simp [Frame.lifts, Req.lifts]) (by simp [Frame.bans, Req.bans]) trivial⟩
      simp [Frame.signs, Req.signs, hne hl]
    · refine ⟨hm, harmless_call (by simp [Frame.enters, Req.enters]) (fun _ _ hl => ?_)
        (by simp [Frame.lifts, Req.lifts]) (by simp [Frame.bans, Req.bans]) trivial⟩
      simp [Frame.signs, Req.signs, hne hl]
    · have h₁ : Keeps E id (w.setGate g d) en si li
          (signed (w.setGate g d) g fd u ((d.objs u).id, (d.objs u).secret)) := by
        refine keeps_signed hm.fits g fd u _ fun he hs hl => ?_
        dsimp only
        intro heq
        have hnone := hl.gates g (by simp)
        rw [gate_setGate, if_pos rfl] at hnone
        have hu' : d.users = (w.gate g).users := by rw [hd] at hu; exact hu
        rw [hu', ← heq, hid', hlook] at hnone
        cases hnone
      refine ⟨hm.trans h₁.moves rfl, harmless_done fun _ _ => rfl⟩

theorem keeps_lost (h : Fits w) (g fd : ℕ) : Keeps E id w en si li (lost w g fd) := by
  unfold lost
  split
  · exact keeps_gateKick h g _
  · exact keeps_done h fun _ _ => rfl

/-- **A socket is handed over**, if its user has signed in. -/
theorem keeps_handover (h : Fits w) {g fd : ℕ} (hid : si = false → ¬ SignedIn id w g fd) :
    Keeps E id w en si li (handover w g fd) := by
  unfold handover
  split
  · rename_i user hl hu
    refine ⟨moves_refl h, harmless_call (by simp [Frame.enters, Req.enters]) (fun _ hs _ => ?_)
      (by simp [Frame.lifts, Req.lifts]) (by simp [Frame.bans, Req.bans]) trivial⟩
    have hne := hid hs
    simp only [SignedIn, Frame.signs, hl, hu, Option.any_some, Bool.true_and] at hne
    simpa [Frame.signs, Req.signs] using hne
  · exact keeps_done h fun _ _ => rfl

theorem keeps_reading (h : Fits w) {g fd : ℕ} (r : Gate.Read)
    (hid : si = false → ¬ SignedIn id w g fd) :
    Keeps E id w en si li (reading w g fd r) := by
  cases r with
  | lost => exact keeps_lost h g fd
  | other =>
      rw [reading]
      split
      · exact keeps_handover h hid
      · exact keeps_lost h g fd
  | signin id' secret =>
      rw [reading]
      split
      · exact keeps_handover h hid
      · have hm : Moves E id w (w.setSock g fd fun c => { c with exit := true }) en si li :=
          moves_sock h fun hl s hu => ⟨hl, hu⟩
        refine ⟨hm, fun _ _ => ?_, fun _ hs _ => ?_, fun _ => ?_, ?_, fun f q he => ?_⟩
        · simp [Served.Is, Ends.Is, Frame.enters, Req.enters]
        · have hne := hid hs
          have hkeep : ∀ g' fd',
            SignedIn id (w.setSock g fd fun c => { c with exit := true }) g' fd' →
              SignedIn id w g' fd' := by
            intro g' fd' hin
            rw [signedIn_setSock] at hin
            split at hin
            · rename_i heq
              obtain ⟨hl, s, hu⟩ := hin
              have hl : (w.socks g fd).login = true := hl
              have hu : (w.socks g fd).user = some (id, s) := hu
              rw [heq.1, heq.2]
              simp [SignedIn, Frame.signs, hl, hu]
            · exact hin
          simp only [Served.Is, Ends.Is, Req.signs, List.mem_singleton, exists_eq_left,
            Bool.false_eq_true, or_false]
          exact fun hin => hne (hkeep g fd hin)
        · simp [Served.Is, Ends.Is, Frame.lifts, Req.lifts]
        · simp [Served.Is, Ends.Is, Frame.bans, Req.bans]
        · obtain ⟨rfl, -⟩ := Ends.call.inj he
          trivial

/-! ### The watchdog and the agents -/

/-- What the watchdog calls. -/
theorem callOf_plain (id : ℕ) (d : Watchdog.Data) (pc : Watchdog.Pc) :
    (callOf d pc).enters id = false ∧ (callOf d pc).lifts id = false ∧
    (callOf d pc).bans id = false ∧
      (assigned pc ≠ some id → (callOf d pc).signs id = false) := by
  cases pc <;> simp [callOf, Req.enters, Req.lifts, Req.bans, Req.signs, assigned]

theorem keeps_wdOut (h : Fits w) {o : Watchdog.Out} {who : Option ℕ} (ho : Steady w.wd o.w who)
    (hpcs : ∀ pc ∈ o.pcs, assigned pc = who) (hid : si = false → who ≠ some id) :
    Keeps E id w en si li (wdOut w o) := by
  cases o with
  | ret d r => cases r <;> exact ⟨moves_wd h ho hid, harmless_done fun _ _ => rfl⟩
  | wait d pc =>
      obtain ⟨he, hl, hb, hs⟩ := callOf_plain id d pc
      have hpc : assigned pc = who := hpcs pc (List.mem_singleton.2 rfl)
      refine ⟨moves_wd h ho hid, harmless_call (fun _ _ => ⟨rfl, he⟩) (fun _ hsi _ => ?_)
        (fun _ => ⟨rfl, hl⟩) ⟨rfl, hb⟩ trivial⟩
      have hne : assigned pc ≠ some id := hpc ▸ hid hsi
      exact ⟨by simpa [Frame.signs] using hne, hs hne⟩

theorem keeps_agentAssign (h : Fits w) (a : ℕ) (c : Client) (hid : si = false → c.id ≠ id) :
    Keeps E id w en si li (agentAssign w a c) := by
  have hu := users_assign (w.agent a) c
  unfold agentAssign
  split
  · exact keeps_done h fun _ _ => rfl
  · split
    all_goals
      rename_i d hd
      rw [hd] at hu
    · exact ⟨moves_agent h fun _ hnone => by rwa [hu], harmless_done fun _ _ => rfl⟩
    · refine ⟨moves_agent h fun _ hnone => by rwa [hu], ?_⟩
      constructor <;> simp [Served.Is, Ends.Is, Ans.enters, Req.enters, Req.signs,
        Req.lifts, Req.bans]
    · refine ⟨moves_agent h fun _ hnone => by rwa [hu],
        harmless_call (by simp [Frame.enters, Req.enters])
        (fun _ hs _ => ?_) (by simp [Frame.lifts, Req.lifts])
        (by simp [Frame.bans, Req.bans]) trivial⟩
      simp [Frame.signs, Req.signs, hid hs]

theorem keeps_gone (h : Fits w) (a : ℕ) (u : Agent.Ref) : Keeps E id w en si li (gone w a u) := by
  have hu := users_gone (w.agent a) u
  unfold gone
  split
  · rename_i d hd
    rw [hd] at hu
    exact ⟨moves_agent h fun _ hnone => by rwa [hu], harmless_done fun _ _ => rfl⟩
  · rename_i d v hd
    rw [hd] at hu
    exact ⟨moves_agent h fun _ hnone => by rwa [hu],
      harmless_call (by simp [Frame.enters, Req.enters])
      (by simp [Frame.signs, Req.signs]) (by simp [Frame.lifts, Req.lifts])
      (by simp [Frame.bans, Req.bans]) trivial⟩

theorem keeps_expire (h : Fits w) (a : ℕ) (u : Agent.Ref) :
    Keeps E id w en si li (expire w a u) := by
  unfold expire
  split
  · exact ⟨moves_agent h fun _ hnone => lookup_erase_none _ hnone,
      harmless_call (by simp [Frame.enters, Req.enters]) (by simp [Frame.signs, Req.signs])
        (by simp [Frame.lifts, Req.lifts]) (by simp [Frame.bans, Req.bans]) trivial⟩
  · exact keeps_done h fun _ _ => rfl

/-! ### The flag -/

theorem keeps_accRead (h : Fits w) (id' : ℕ) (forbidden : Bool)
    (hid : li = false → (Frame.accRead id' forbidden).lifts id = false) :
    Keeps E id w en si li (accRead E w id' forbidden) := by
  unfold accRead
  split
  · exact keeps_done h fun _ _ => rfl
  · exact keeps_done h fun _ _ => rfl
  · rename_i base hbase
    refine ⟨moves_refl h, harmless_call (by simp [Frame.enters, Req.enters])
      (by simp [Frame.signs, Req.signs]) (fun hl => ?_) (by simp [Frame.bans, Req.bans])
      ⟨base, hbase⟩⟩
    simpa [Frame.lifts, Req.lifts] using hid hl

theorem keeps_accWrite (h : Fits w) {id' : ℕ} {base : Accdb.Base}
    (hb : ∃ base', Accdb.BaseOf E.toEnv w.accounts id' base') (answer : Auth.Answer)
    (hid : li = false → (Frame.accWrite id' base).lifts id = false) :
    Keeps E id w en si li (accWrite E w id' base answer) := by
  obtain ⟨accounts, hs⟩ := h.stored
  obtain ⟨base', hb'⟩ := hb
  have hm : Moves E id w { w with accounts := Accdb.refreshbase E.toEnv w.accounts base id' }
      en si li := by
    refine moves_accounts h ⟨accounts, hs.hset _ _ _ _⟩ (h.counted.refreshbase hb') ?_ ?_
    · rintro id'' ⟨base'', hb''⟩
      by_cases heq : id'' = id'
      · exact ⟨base, (Accdb.baseOf_refreshbase _ _ _ _).2 (by rw [if_pos heq])⟩
      · exact ⟨base'', (Accdb.baseOf_refreshbase _ _ _ _).2 (by rwa [if_neg heq])⟩
    rintro hl ⟨base'', hb'', hf⟩
    by_cases heq : id = id'
    · have hforb := hid hl
      simp [Frame.lifts, heq] at hforb
      exact ⟨base, (Accdb.baseOf_refreshbase _ _ _ _).2 (by rw [if_pos heq]), hforb⟩
    · exact ⟨base'', (Accdb.baseOf_refreshbase _ _ _ _).2 (by rw [if_neg heq]; exact hb''), hf⟩
  cases answer with
  | ok => exact ⟨hm, harmless_done fun _ _ => rfl⟩
  | failed => exact keeps_done h fun _ _ => rfl
  | lost => exact ⟨hm, harmless_done fun _ _ => rfl⟩

/-! ### The handlers -/

/-- A frame and a request that have nothing to do with the user. -/
structure Plain (id : ℕ) (f : Frame) (q : Req) : Prop where
  enters : f.enters id = false ∧ q.enters id = false
  signs : ∀ w, f.signs id w = false ∧ q.signs id = false
  lifts : f.lifts id = false ∧ q.lifts id = false
  bans : f.bans id = false ∧ q.bans id = false
  writes : ∀ E w, f.Writes E w

theorem keeps_plain (h : Fits w) {f : Frame} {q : Req} (hp : Plain id f q) :
    Keeps E id w en si li (call w f q) :=
  ⟨moves_refl h, harmless_call (fun _ _ => hp.enters) (fun _ _ _ => hp.signs w) (fun _ => hp.lifts)
    hp.bans (hp.writes E w)⟩

/-- Only these requests ban, or let in again, a user. -/
def Req.rules (id : ℕ) : Req → Bool
  | .blacklist id' | .whitelist id' => id' == id
  | _ => false

/-- **The first segment of a handler.** -/
theorem keeps_serve (h : Fits w) {q : Req} (i : Inp) (hq : q.rules id = false) :
    Keeps E id w (q.enters id) (q.signs id) (q.lifts id) (serve w q i) := by
  cases q with
  | login app platform version r =>
      simp only [serve]
      split
      · exact ⟨moves_login h _, harmless_call (by simp [Frame.enters, Req.enters])
          (by simp [Frame.signs, Req.signs]) (by simp [Frame.lifts, Req.lifts])
          (by simp [Frame.bans, Req.bans]) trivial⟩
      · exact ⟨moves_login h _, harmless_done fun _ _ => rfl⟩
  | handshake r => exact keeps_handshake h r
  | external => exact keeps_done h fun _ _ => rfl
  | gateLogin g id' secret new =>
      simp only [serve]
      split
      · refine ⟨moves_refl h,
          harmless_call (fun he _ => ⟨he, rfl⟩) (by simp [Frame.signs, Req.signs])
          (by simp [Frame.lifts, Req.lifts]) (by simp [Frame.bans, Req.bans]) trivial⟩
      · exact keeps_enter h g id' secret fun he => by simpa [Req.enters] using he
  | connect g =>
      have h₁ : Moves E id w { w with nsock := Function.update w.nsock g (w.nsock g + 1) }
          false false false := moves_nsock h _
      have h₂ : Moves E id { w with nsock := Function.update w.nsock g (w.nsock g + 1) }
          (({ w with nsock := Function.update w.nsock g (w.nsock g + 1) } : World).setSock g
            (w.nsock g) fun _ => {}) false false false :=
              moves_sock h₁.fits fun hl _ _ => by cases hl
      refine ⟨h₁.trans h₂ rfl, ?_⟩
      refine harmless_call (by simp [Frame.enters, Req.enters]) (fun _ _ _ => ⟨?_, rfl⟩)
        (by simp [Frame.lifts, Req.lifts]) (by simp [Frame.bans, Req.bans]) trivial
      simp [Frame.signs, World.setSock]
  | signin g fd id' secret =>
      exact keeps_plain h ⟨⟨rfl, rfl⟩, fun _ => ⟨rfl, rfl⟩, ⟨rfl, rfl⟩, ⟨rfl, rfl⟩,
        fun _ _ => trivial⟩
  | timeout g u => exact keeps_timeout h g u
  | gateKick g id' => exact keeps_gateKick h g id'
  | logout g id' =>
      simp only [serve]
      split <;> exact ⟨moves_login h _, harmless_done fun _ _ => rfl⟩
  | restore g id' =>
      simp only [serve]
      split <;> exact ⟨moves_login h _, harmless_done fun _ _ => rfl⟩
  | secret id' => exact keeps_done h fun _ _ => rfl
  | wd r =>
      refine keeps_wdOut h (steady_direct h.made h.own r) (assigned_direct w.wd r) fun hs => ?_
      cases r with
      | assign c => simpa [Req.signs, requested] using hs
      | _ => simp [requested]
  | agentAssign a c => exact keeps_agentAssign h a c fun hs => by simpa [Req.signs] using hs
  | agentKick a id' clear =>
      simp only [serve]
      split
      · exact keeps_done h fun _ _ => rfl
      · refine ⟨moves_agent h fun _ hnone => ?_, harmless_done fun _ _ => rfl⟩
        rw [lookup_kick]
        split
        · rfl
        · exact hnone
  | agentClose a =>
      have h₁ : Moves E id w (w.setAgent a {}) false false false := moves_agent h fun _ _ => rfl
      exact ⟨h₁.trans (moves_closed h₁.fits _) rfl, harmless_done fun _ _ => rfl⟩
  | msgloop a u =>
      exact keeps_plain h ⟨⟨rfl, rfl⟩, fun _ => ⟨rfl, rfl⟩, ⟨rfl, rfl⟩, ⟨rfl, rfl⟩,
        fun _ _ => trivial⟩
  | accFlag id' forbidden =>
      refine ⟨moves_refl h, harmless_call (by simp [Frame.enters, Req.enters])
        (by simp [Frame.signs, Req.signs]) (fun hl => ⟨hl, rfl⟩)
        (by simp [Frame.bans, Req.bans]) trivial⟩
  | blacklist id' =>
      refine ⟨moves_refl h, harmless_call (by simp [Frame.enters, Req.enters])
        (by simp [Frame.signs, Req.signs]) (by simp [Frame.lifts, Req.lifts]) ⟨hq, rfl⟩ trivial⟩
  | whitelist id' =>
      have hne : id' ≠ id := by simpa [Req.rules] using hq
      exact ⟨moves_bar h hne false, harmless_call (by simp [Frame.enters, Req.enters])
        (by simp [Frame.signs, Req.signs]) (by simp [Frame.lifts, Req.lifts, hne])
        (by simp [Frame.bans, Req.bans]) trivial⟩

/-- **The segment after an answer.** -/
theorem keeps_resume (h : Fits w) {f : Frame} (ans : Ans) (hf : f.bans id = false)
    (hw : f.Writes E w) : Keeps E id w (f.enters id || ans.enters id) (f.signs id w) (f.lifts id)
      (resume E w f ans) := by
  cases f with
  | handshake app platform =>
      simp only [resume]
      split
      · rename_i u
        refine keeps_loginOut h u fun pc hpc hen _ heq => ?_
        obtain ⟨hu, hforb⟩ := user_handshake w.login app platform u pc hpc
        rw [hu] at heq
        simp [Frame.enters, Ans.enters, Option.some.inj heq, hforb] at hen
      · exact keeps_done h fun _ _ => rfl
  | login pc user =>
      refine keeps_loginOut h user fun pc' hpc' hen _ heq => ?_
      obtain ⟨hu, app, platform, id', rfl⟩ := user_resume w.login ans.failed pc pc' hpc'
      rw [hu] at heq
      obtain rfl := Option.some.inj heq
      simp [Frame.enters] at hen
  | auth pc =>
      have hen : ((Frame.auth pc).enters id || ans.enters id) = false →
          (Frame.auth pc).enters id = false := fun he => (Bool.or_eq_false_iff.1 he).1
      simp only [resume]
      split
      · split
        · refine ⟨moves_refl h,
            harmless_call (fun he _ => ⟨hen he, rfl⟩) (by simp [Frame.signs, Req.signs])
            (by simp [Frame.lifts, Req.lifts]) (by simp [Frame.bans, Req.bans]) trivial⟩
        · rename_i out hseg
          obtain ⟨accounts, hs⟩ := h.stored
          exact keeps_authOut h (Auth.reads_segment hs h.counted hseg) hen
      · exact keeps_done h fun _ _ => rfl
  | gateLogin g id' secret =>
      simp only [resume]
      split
      · exact keeps_done h fun _ _ => rfl
      · refine keeps_enter h g id' secret fun he => ?_
        simpa [Frame.enters] using (Bool.or_eq_false_iff.1 he).1
  | reading g fd =>
      simp only [resume]
      split
      · exact keeps_reading h _ fun hs => by rw [SignedIn, hs]; simp
      · exact keeps_done h fun _ _ => rfl
  | assigning g fd => exact keeps_done h fun _ _ => rfl
  | secret g fd id' secret =>
      simp only [resume]
      split
      · exact keeps_signin h g fd id' secret
      · split
        · exact keeps_signin h g fd id' secret
        · exact keeps_done h fun _ _ => rfl
      · exact keeps_done h fun _ _ => rfl
  | restore g fd u user =>
      simp only [resume]
      split
      · exact keeps_signed h g fd u user fun _ hs _ => by simpa [Frame.signs] using hs
      · exact keeps_done h fun _ _ => rfl
  | kickAgent g fd u user =>
      simp only [resume]
      split
      · exact keeps_done h fun _ _ => rfl
      · exact keeps_signed h g fd u user fun _ hs _ => by simpa [Frame.signs] using hs
  | logout g =>
      simp only [resume]
      exact keeps_done h fun _ _ => by split <;> rfl
  | wd pc =>
      refine keeps_wdOut h (steady_resume h.made h.own _ pc) (assigned_resume w.wd _ pc)
        fun hs => ?_
      simpa [Frame.signs] using hs
  | avatar a c =>
      simp only [resume]
      split
      · exact keeps_done h fun _ _ => rfl
      · refine ⟨moves_agent h fun hs hnone => ?_, harmless_call (by simp [Frame.enters, Req.enters])
          (by simp [Frame.signs, Req.signs]) (by simp [Frame.lifts, Req.lifts])
          (by simp [Frame.bans, Req.bans]) trivial⟩
        have hne : c.id ≠ id := by simpa [Frame.signs] using hs
        change ((w.agent a).users.insert c.id (w.agent a).nobj).lookup id = none
        rw [lookup_insert_eq, if_neg (Ne.symm hne)]
        exact hnone
  | mydesk a u =>
      simp only [resume]
      split
      · exact keeps_done h fun _ _ => rfl
      · refine ⟨moves_refl h, ?_⟩
        constructor <;>
          simp [Served.Is, Ends.Is, Ans.enters, Req.enters, Req.signs, Req.lifts, Req.bans]
  | msgloop a u =>
      simp only [resume]
      split
      · exact keeps_done h fun _ _ => rfl
      · exact keeps_gone h a u
  | afk a u =>
      simp only [resume]
      split
      · exact keeps_done h fun _ _ => rfl
      · exact keeps_plain h
          ⟨⟨rfl, rfl⟩, fun _ => ⟨rfl, rfl⟩, ⟨rfl, rfl⟩, ⟨rfl, rfl⟩, fun _ _ => trivial⟩
  | sleeping a u =>
      simp only [resume]
      split
      · exact keeps_done h fun _ _ => rfl
      · exact keeps_expire h a u
  | exiting => exact keeps_done h fun _ _ => rfl
  | accRead id' forbidden =>
      simp only [resume]
      split
      · split
        · exact keeps_accRead h id' forbidden fun hl => hl
        · exact keeps_done h fun _ _ => rfl
      · exact keeps_done h fun _ _ => rfl
  | accWrite id' base =>
      simp only [resume]
      split
      · exact keeps_accWrite h hw _ fun hl => hl
      · exact keeps_done h fun _ _ => rfl
  | flagging id' =>
      have hne : id' ≠ id := by simpa [Frame.bans] using hf
      simp only [resume]
      split
      · exact ⟨moves_refl h, harmless_call (by simp [Frame.enters, Req.enters])
          (by simp [Frame.signs, Req.signs]) (by simp [Frame.lifts, Req.lifts])
          (by simp [Frame.bans, Req.bans, hne]) trivial⟩
      · exact ⟨moves_bar h hne true, harmless_done fun _ _ => rfl⟩
      · exact keeps_done h fun _ _ => rfl
  | kicking id' =>
      have hne : id' ≠ id := by simpa [Frame.bans] using hf
      simp only [resume]
      split
      · exact keeps_done h fun _ _ => rfl
      · exact ⟨moves_bar h hne true, harmless_done fun _ _ => rfl⟩
  | lifting id' => exact keeps_done h fun _ _ => rfl

end Outs

end Halieutics.Misc
