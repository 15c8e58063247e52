/-
**The handshake: `service/auth.lua`.**

`auth.handshake` asks the third party who the player is, looks the identity up in the account store,
and registers it when it is not found.  Between the lookup and the registration the coroutine yields
— for the other script that makes a name, too — and the registration does not look again.

Main definitions:

* `Halieutics.Auth.Signing`, `Halieutics.Auth.Pc` — a handshake and where it is suspended;
* `Halieutics.Auth.machine` — the handshakes of any number of `auth` services over one store;
* `Halieutics.Auth.OneAccount` — **one account at most, for all handshakes of an identity, and one
  flag**;
* `Halieutics.Auth.Apart` — the condition: nobody looks the identity up while somebody else, who has
  not found it, is about to register it.

Main results:

* `Halieutics.Auth.stored_of_reach` — what the store keeps, along every run;
* `Halieutics.Auth.oneAccount_of_apart` — **one account and one flag**, in every run that meets the
  condition;
* `Halieutics.Auth.reads_segment` — the base that a handshake returns is one that was in the store;
* `Halieutics.Auth.two_accounts` — two handshakes at the same time make two accounts.
-/

import Halieutics.Coroutine
import Halieutics.Accdb

set_option relaxedAutoImplicit false
set_option autoImplicit false

namespace Halieutics.Auth

open Coroutine Redis Accdb

/-! ### The handshake -/

/-- What `getuser` makes of an account. -/
structure User where
  id : ℕ
  new : Bool
  guest : Bool
  uname : String
  secret : String
  acc : Uinfo
  forbidden : Bool
  rtk : String
  deriving DecidableEq

/-- What an observer sees: an account is created, or a handshake succeeds. -/
inductive Event where
  | created (k : Ident) (id : ℕ)
  | succeeded (k : Ident) (user : User)
  deriving DecidableEq

/-- The store, and what has been seen. -/
structure Db where
  store : Store := {}
  hist : List Event := []

/-- `acc`, before the account is known: whether it is a guest's, and what the third party said. -/
structure Signing where
  guest : Bool
  third : Third
  uinfo : Option Uinfo

/-- The yields of a handshake. -/
inductive Pc where
  /-- `thirdparty.auth` -/
  | auth
  /-- `accdb.query3rd` -/
  | query (a : Signing)
  /-- `accdb.register3rd`, at the script `unique_username` -/
  | username (a : Signing)
  /-- `accdb.register3rd`, at the script `register3rd` -/
  | register (a : Signing) (base : Base) (uinfo : Uinfo)
  /-- `statdb.user` -/
  | stat (a : Signing) (id : ℕ) (base : Base) (uinfo : Option Uinfo)
  /-- `accdb.refresh3rd` -/
  | refresh (a : Signing) (id : ℕ) (base : Base)

/-- How a remote call ends: it returns, it is not made, or its answer is lost. -/
inductive Answer where
  | ok | failed | lost
  deriving DecidableEq

/-- What the world supplies to a segment: how the call ended, what the third party said, how long
the script has run, and a random key. -/
structure Inp where
  answer : Answer := .ok
  auth : Option (Third × Option Uinfo) := none
  rounds : ℕ := 0
  secret : String := ""

/-- A request: `type` is a guest's, with his code, or that of a third party. -/
inductive Req where
  | guest (code : String)
  | third

/-- **`auth.handshake`** up to its first yield. -/
def handshake (d : Db) : Req → Db × List Pc
  | .guest code =>
      if code.isEmpty then (d, [])
      else (d, [.query ⟨true, ⟨"guest", code, code⟩, none⟩])
  | .third => (d, [.auth])

/-- The end of a handshake: `getuser` raises when the third party said nothing about the player. -/
def finish (d : Db) (a : Signing) (new : Bool) (id : ℕ) (base : Base) (secret : String) :
    Option Uinfo → Db × List Pc
  | none => (d, [])
  | some uinfo =>
      let user : User :=
        ⟨id, new, a.guest, uinfo.uname, secret, uinfo, base.forbidden, a.third.rtk⟩
      ({ d with hist := .succeeded a.third.ident user :: d.hist }, [])

/-- After the lookup. -/
def queried (d : Db) (a : Signing) (secret : String) : Query → Db × List Pc
  | .missing => (d, [.username a])
  | .found id base uinfo =>
      if a.guest then finish d a false id base secret (some uinfo) else (d, [.refresh a id base])
  | .raised => (d, [])

/-- The segments after the yields.  A segment waits for its script. -/
def segment (E : Env) (d : Db) (inp : Inp) : Pc → Option (Db × List Pc)
  | .auth =>
      match inp.answer, inp.auth with
      | .ok, some (third, uinfo) => some (d, [.query ⟨false, third, uinfo⟩])
      | _, _ => some (d, [])
  | .query a =>
      match inp.answer with
      | .ok => (query3rd E d.store a.third inp.rounds).map (queried d a inp.secret)
      | _ => some (d, [])
  | .username a =>
      match inp.answer with
      | .failed => some (d, [])
      | .lost => some ({ d with store := (uniqueUsername E d.store).1 }, [])
      | .ok =>
          let r := uniqueUsername E d.store
          some ({ d with store := r.1 },
            [.register a ⟨r.2, false⟩ (a.uinfo.getD ⟨r.2, 0, "null"⟩)])
  | .register a base uinfo =>
      match inp.answer with
      | .failed => some (d, [])
      | answer =>
          (register3rd E d.store a.third base uinfo inp.rounds).map fun r =>
            (⟨r.1, .created a.third.ident r.2 :: d.hist⟩,
              -- of a player of a third party only `id` and `base` are taken over
              if answer = .ok then [.stat a r.2 base (if a.guest then some uinfo else a.uinfo)]
              else [])
  | .stat a id base uinfo =>
      match inp.answer with
      | .ok => some (finish d a true id base inp.secret uinfo)
      | _ => some (d, [])
  | .refresh a id base =>
      match inp.answer with
      | .failed => some (d, [])
      | answer =>
          let d := { d with store := refresh3rd E d.store id a.third a.uinfo }
          some (if answer = .ok then finish d a false id base inp.secret a.uinfo else (d, []))

/-- **The handshakes as a machine.** -/
def machine (E : Env) : Machine Db Pc Req Inp where
  call d r _ := handshake d r
  resume d pc inp := segment E d inp pc

abbrev Sys := Pool Db Pc

abbrev Ev := Coroutine.Event Req Inp

/-- Before the first handshake. -/
def start : Sys := ⟨{}, []⟩

/-! ### One account -/

/-- The accounts that have been created. -/
def accounts (hist : List Event) : List (Ident × ℕ) :=
  hist.filterMap fun
    | .created k id => some (k, id)
    | .succeeded _ _ => none

/-- The numbers of the accounts of an identity. -/
def idsOf (k : Ident) (hist : List Event) : List ℕ :=
  hist.filterMap fun
    | .created k' id => if k' = k then some id else none
    | .succeeded _ _ => none

/-- The users who were told that they are new. -/
def newOf (k : Ident) (hist : List Event) : List User :=
  hist.filterMap fun
    | .created _ _ => none
    | .succeeded k' user => if k' = k ∧ user.new = true then some user else none

/-- **One account at most has been created for the identity, every handshake that succeeded returned
it, and one of them at most said that it is new.** -/
structure OneAccount (k : Ident) (hist : List Event) : Prop where
  created : (idsOf k hist).length ≤ 1
  returned : ∀ user, .succeeded k user ∈ hist → idsOf k hist = [user.id]
  flags : (newOf k hist).length ≤ 1

/-- The handshake has not found the identity and is about to register it. -/
def Pc.registering (k : Ident) : Pc → Bool
  | .username a | .register a _ _ => decide (a.third.ident = k)
  | _ => false

/-- **The condition**: a handshake looks the identity up only when no other one, which did not find
it, is about to register it. -/
def Apart (k : Ident) (s : Sys) : Ev → Prop
  | .call _ _ => True
  | .resume i _ =>
      match s.cos[i]? with
      | some (.query a) => a.third.ident = k → ∀ pc ∈ s.cos, pc.registering k = false
      | _ => True

instance (k : Ident) (s : Sys) (e : Ev) : Decidable (Apart k s e) := by
  unfold Apart
  split
  · infer_instance
  · split <;> infer_instance

/-! ### What a handshake carries -/

/-- The account that a handshake has found or created. -/
def Pc.account? : Pc → Option (Ident × ℕ)
  | .stat a id _ _ | .refresh a id _ => some (a.third.ident, id)
  | _ => none

/-- The handshake has created an account and is about to say so. -/
def Pc.announcing (k : Ident) : Pc → Bool
  | .stat a _ _ _ => decide (a.third.ident = k)
  | _ => false

@[simp] theorem accounts_created (k : Ident) (id : ℕ) (hist : List Event) :
    accounts (.created k id :: hist) = (k, id) :: accounts hist := rfl

@[simp] theorem accounts_succeeded (k : Ident) (user : User) (hist : List Event) :
    accounts (.succeeded k user :: hist) = accounts hist := rfl

@[simp] theorem idsOf_succeeded (k k' : Ident) (user : User) (hist : List Event) :
    idsOf k (.succeeded k' user :: hist) = idsOf k hist := rfl

@[simp] theorem newOf_created (k k' : Ident) (id : ℕ) (hist : List Event) :
    newOf k (.created k' id :: hist) = newOf k hist := rfl

theorem idsOf_created (k k' : Ident) (id : ℕ) (hist : List Event) :
    idsOf k (.created k' id :: hist) = if k' = k then id :: idsOf k hist else idsOf k hist := by
  by_cases h : k' = k <;> simp [idsOf, h]

theorem newOf_succeeded (k k' : Ident) (user : User) (hist : List Event) :
    newOf k (.succeeded k' user :: hist) =
      if k' = k ∧ user.new = true then user :: newOf k hist else newOf k hist := by
  by_cases h : k' = k ∧ user.new = true <;> simp [newOf, h]

theorem mem_idsOf {k : Ident} {id : ℕ} {hist : List Event} :
    id ∈ idsOf k hist ↔ (k, id) ∈ accounts hist := by
  simp only [idsOf, accounts, List.mem_filterMap]
  refine exists_congr fun e => and_congr_right fun _ => ?_
  cases e with
  | created k' id' =>
      by_cases h : k' = k <;> simp [h]
  | succeeded k' user => simp

/-- **The invariant.**  The store keeps the accounts that were created; whoever carries an account,
or has returned one, carries one that was created; and for the identity `k` a registration to come
and the accounts are one at most, so that there are no more flags than accounts. -/
structure Known (k : Ident) (d : Db) (pcs : List Pc) : Prop where
  stored : Stored d.store (accounts d.hist)
  carried : ∀ pc ∈ pcs, ∀ e, pc.account? = some e → e ∈ accounts d.hist
  returned : ∀ k' user, .succeeded k' user ∈ d.hist → (k', user.id) ∈ accounts d.hist
  once : pcs.countP (Pc.registering k) + (idsOf k d.hist).length ≤ 1
  flags : pcs.countP (Pc.announcing k) + (newOf k d.hist).length ≤ (idsOf k d.hist).length

section Step

variable {E : Env} {k : Ident} {d d' : Db} {pc : Pc} {rest l : List Pc}

theorem Known.perm {l' : List Pc} (h : Known k d l) (hp : l.Perm l') : Known k d l' where
  stored := h.stored
  carried pc hpc := h.carried pc (hp.mem_iff.2 hpc)
  returned := h.returned
  once := by
    rw [← hp.countP_eq]
    exact h.once
  flags := by
    rw [← hp.countP_eq]
    exact h.flags

/-- A segment that nobody sees, and that does not begin a registration. -/
theorem Known.silent (h : Known k d (pc :: rest)) (hs : Stored d'.store (accounts d.hist))
    (hh : d'.hist = d.hist) (hc : ∀ pc' ∈ l, ∀ e, pc'.account? = some e → e ∈ accounts d.hist)
    (hr : l.countP (Pc.registering k) ≤ [pc].countP (Pc.registering k))
    (ha : l.countP (Pc.announcing k) ≤ [pc].countP (Pc.announcing k)) : Known k d' (l ++ rest) := by
  have honce := h.once
  have hflags := h.flags
  rw [← List.singleton_append, List.countP_append] at honce hflags
  refine ⟨hh ▸ hs, ?_, hh ▸ h.returned, ?_, ?_⟩
  · intro pc' hpc'
    rw [hh]
    rcases List.mem_append.1 hpc' with hpc' | hpc'
    · exact hc pc' hpc'
    · exact h.carried pc' (List.mem_cons_of_mem _ hpc')
  · rw [List.countP_append, hh]
    omega
  · rw [List.countP_append, hh]
    omega

/-- One point that carries an account. -/
theorem carried_singleton {e : Ident × ℕ} {l : List (Ident × ℕ)} (hpc : pc.account? = some e)
    (he : e ∈ l) : ∀ pc' ∈ [pc], ∀ e', pc'.account? = some e' → e' ∈ l := by
  intro pc' hpc' e' he'
  obtain rfl := List.mem_singleton.1 hpc'
  obtain rfl := Option.some.inj (hpc.symm.trans he')
  exact he

/-- A handshake ends without success. -/
theorem Known.ends (h : Known k d (pc :: rest)) : Known k d rest :=
  h.silent (l := []) h.stored rfl (by simp) (by simp) (by simp)

/-- **A lookup that finds nothing begins a registration**: then there is none yet, and no
account. -/
theorem Known.misses {a : Signing} {rounds : ℕ} (h : Known k d (.query a :: rest))
    (hq : query3rd E d.store a.third rounds = some .missing)
    (hapart : a.third.ident = k → ∀ pc ∈ rest, pc.registering k = false) :
    Known k d (.username a :: rest) := by
  refine ⟨h.stored, ?_, h.returned, ?_, h.flags⟩
  · intro pc hpc
    rcases List.mem_cons.1 hpc with rfl | hpc
    · exact fun e he => absurd he (by simp [Pc.account?])
    · exact h.carried pc (List.mem_cons_of_mem _ hpc)
  · by_cases hk : a.third.ident = k
    · have hno : idsOf k d.hist = [] := by
        refine List.eq_nil_iff_forall_not_mem.2 fun id hid => ?_
        exact h.stored.missing hq id (hk ▸ mem_idsOf.1 hid)
      have hrest : rest.countP (Pc.registering k) = 0 := by
        rw [List.countP_eq_zero]
        intro pc hpc
        simp [hapart hk pc hpc]
      rw [List.countP_cons, hrest, hno]
      simp [Pc.registering, hk]
    · have honce := h.once
      rw [List.countP_cons] at honce ⊢
      simpa [Pc.registering, hk] using honce

/-- **A registration creates an account.** -/
theorem Known.registers {a : Signing} {base : Base} {uinfo : Uinfo} {r : Store} {rounds id : ℕ}
    (h : Known k d (.register a base uinfo :: rest))
    (hr : register3rd E d.store a.third base uinfo rounds = some (r, id))
    (hl : l = [] ∨ ∃ u, l = [.stat a id base u]) :
    Known k ⟨r, .created a.third.ident id :: d.hist⟩ (l ++ rest) := by
  have hl₁ : l.countP (Pc.registering k) = 0 := by
    rcases hl with rfl | ⟨u, rfl⟩ <;> simp [Pc.registering]
  have hl₂ : l.countP (Pc.announcing k) ≤ if a.third.ident = k then 1 else 0 := by
    rcases hl with rfl | ⟨u, rfl⟩
    · simp
    · by_cases hk : a.third.ident = k <;> simp [Pc.announcing, hk]
  have honce := h.once
  have hflags := h.flags
  rw [List.countP_cons] at honce hflags
  simp only [Pc.registering, Pc.announcing, decide_eq_true_eq] at honce hflags
  refine ⟨h.stored.register3rd hr, ?_, ?_, ?_, ?_⟩
  · intro pc hpc e he
    rcases List.mem_append.1 hpc with hpc | hpc
    · rcases hl with rfl | ⟨u, rfl⟩
      · exact absurd hpc List.not_mem_nil
      · obtain rfl : pc = .stat a id base u := by simpa using hpc
        obtain rfl : (a.third.ident, id) = e := Option.some.inj he
        exact List.mem_cons_self
    · exact List.mem_cons_of_mem _ (h.carried pc (List.mem_cons_of_mem _ hpc) e he)
  · intro k' user hu
    refine List.mem_cons_of_mem _ (h.returned k' user ?_)
    simpa using hu
  · rw [List.countP_append, hl₁, idsOf_created]
    by_cases hk : a.third.ident = k
    · rw [if_pos hk] at honce ⊢
      simp only [List.length_cons]
      omega
    · rw [if_neg hk] at honce ⊢
      omega
  · rw [List.countP_append, idsOf_created, newOf_created]
    by_cases hk : a.third.ident = k
    · rw [if_pos hk] at hl₂ ⊢
      simp only [List.length_cons]
      simp at hflags
      omega
    · rw [if_neg hk] at hl₂ ⊢
      simp at hflags
      omega

/-- **A handshake succeeds.** -/
theorem Known.finishes {a : Signing} {id : ℕ} {new : Bool} {base : Base} {secret : String}
    {uinfo : Option Uinfo} (h : Known k d (pc :: rest))
    (hf : finish d a new id base secret uinfo = (d', l))
    (hid : (a.third.ident, id) ∈ accounts d.hist)
    (hnew : new = true → pc.announcing a.third.ident = true) : Known k d' (l ++ rest) := by
  cases uinfo with
  | none =>
      obtain ⟨rfl, rfl⟩ := Prod.mk.inj hf
      exact h.ends
  | some uinfo =>
      obtain ⟨rfl, rfl⟩ := Prod.mk.inj hf
      rw [List.nil_append]
      refine ⟨h.stored, fun pc' hpc' => h.carried pc' (List.mem_cons_of_mem _ hpc'), ?_, ?_, ?_⟩
      · intro k' user hu
        rcases List.mem_cons.1 hu with he | hu
        · obtain ⟨rfl, rfl⟩ := Event.succeeded.inj he
          exact hid
        · exact h.returned k' user hu
      · have honce := h.once
        rw [List.countP_cons] at honce
        rw [idsOf_succeeded]
        omega
      · have hflags := h.flags
        rw [List.countP_cons] at hflags
        rw [idsOf_succeeded, newOf_succeeded]
        split
        · rename_i hk
          rw [← hk.1, if_pos (hnew hk.2)] at hflags
          rw [← hk.1]
          simp only [List.length_cons]
          omega
        · omega

end Step

/-! ### Every run -/

section Runs

variable {E : Env} {k : Ident} {s : Sys}

/-- **What a segment keeps.** -/
theorem Known.segment {d d' : Db} {inp : Inp} {pc : Pc} {rest l : List Pc}
    (h : Known k d (pc :: rest)) (hseg : segment E d inp pc = some (d', l))
    (hapart : ∀ a, pc = .query a → a.third.ident = k → ∀ pc' ∈ rest, pc'.registering k = false) :
    Known k d' (l ++ rest) := by
  -- a handshake that ends
  have ends : some (d, []) = some (d', l) → Known k d' (l ++ rest) := by
    intro he
    obtain ⟨rfl, rfl⟩ := Prod.mk.inj (Option.some.inj he)
    exact h.ends
  cases pc with
  | auth =>
      rw [Auth.segment] at hseg
      split at hseg
      · obtain ⟨rfl, rfl⟩ := Prod.mk.inj (Option.some.inj hseg)
        exact h.silent h.stored rfl (by simp [Pc.account?]) (by simp [Pc.registering])
          (by simp [Pc.announcing])
      · exact ends hseg
  | query a =>
      rw [Auth.segment] at hseg
      split at hseg
      · obtain ⟨q, hq, he⟩ := Option.map_eq_some_iff.1 hseg
        cases q with
        | missing =>
            obtain ⟨rfl, rfl⟩ := Prod.mk.inj he
            exact h.misses hq (hapart a rfl)
        | found id base uinfo =>
            have hid := h.stored.found hq
            rw [queried] at he
            split at he
            · exact h.finishes he hid fun hn => absurd hn Bool.false_ne_true
            · obtain ⟨rfl, rfl⟩ := Prod.mk.inj he
              exact h.silent h.stored rfl (carried_singleton rfl hid) (by simp [Pc.registering])
                (by simp [Pc.announcing])
        | raised => exact ends (congrArg some he)
      · exact ends hseg
  | username a =>
      rw [Auth.segment] at hseg
      split at hseg
      · exact ends hseg
      · obtain ⟨rfl, rfl⟩ := Prod.mk.inj (Option.some.inj hseg)
        exact h.silent (h.stored.uniqueUsername (E := E)) rfl (by simp) (by simp) (by simp)
      · obtain ⟨rfl, rfl⟩ := Prod.mk.inj (Option.some.inj hseg)
        exact h.silent (h.stored.uniqueUsername (E := E)) rfl (by simp [Pc.account?])
          (by simp [Pc.registering])
          (by simp [Pc.announcing])
  | register a base uinfo =>
      rw [Auth.segment] at hseg
      split at hseg
      · exact ends hseg
      · obtain ⟨⟨r, id⟩, hr, he⟩ := Option.map_eq_some_iff.1 hseg
        obtain ⟨rfl, rfl⟩ := Prod.mk.inj he
        refine h.registers hr ?_
        split
        · exact Or.inr ⟨_, rfl⟩
        · exact Or.inl rfl
  | stat a id base uinfo =>
      have hid := h.carried _ List.mem_cons_self _ rfl
      rw [Auth.segment] at hseg
      split at hseg
      · exact h.finishes (Option.some.inj hseg) hid fun _ => by simp [Pc.announcing]
      · exact ends hseg
  | refresh a id base =>
      have hid := h.carried _ List.mem_cons_self _ rfl
      rw [Auth.segment] at hseg
      split at hseg
      · exact ends hseg
      · have h' : Known k { d with store := refresh3rd E d.store id a.third a.uinfo }
            (.refresh a id base :: rest) :=
          h.silent (l := [.refresh a id base]) (h.stored.refresh3rd _ _ _) rfl
            (carried_singleton rfl hid) le_rfl le_rfl
        split at hseg
        · exact h'.finishes (Option.some.inj hseg) hid fun hn => absurd hn Bool.false_ne_true
        · obtain ⟨rfl, rfl⟩ := Prod.mk.inj (Option.some.inj hseg)
          exact h'.ends

/-- A handshake begins with nothing to carry. -/
theorem handshake_cases (d : Db) (r : Req) : (handshake d r).1 = d ∧
    ((handshake d r).2 = [] ∨ (handshake d r).2 = [.auth] ∨ ∃ a,
    (handshake d r).2 = [.query a]) := by
  cases r with
  | guest code =>
      rw [handshake]
      split
      · exact ⟨rfl, Or.inl rfl⟩
      · exact ⟨rfl, Or.inr (Or.inr ⟨_, rfl⟩)⟩
  | third => exact ⟨rfl, Or.inr (Or.inl rfl)⟩

/-- **The invariant holds along every run** that meets the condition. -/
theorem known_of_apart (h : (machine E).Reach (Apart k) start s) : Known k s.shared s.cos := by
  refine Machine.Reach.inv (P := fun s => Known k s.shared s.cos) ?_ ?_ h
  · exact ⟨stored_empty, by simp [start], by simp [start], by simp [start, idsOf],
      by simp [start, newOf]⟩
  · intro s e s' hI hC he
    rcases Machine.exec_cases he with
      ⟨r, inp, rfl, rfl⟩ | ⟨i, inp, l, pc, rest, out, rfl, hpc, hcos, ho, rfl⟩
    · obtain ⟨hd, hl⟩ := handshake_cases s.shared r
      have hnew : Known k s.shared ((handshake s.shared r).2 ++ s.cos) := by
        rcases hl with hl | hl | ⟨a, hl⟩
        · rw [hl]
          exact hI
        all_goals
          rw [hl]
          refine ⟨hI.stored, ?_, hI.returned, ?_, ?_⟩
          · intro pc hpc
            rcases List.mem_cons.1 hpc with rfl | hpc
            · exact fun e he => absurd he (by simp [Pc.account?])
            · exact hI.carried pc hpc
          · simpa [Pc.registering] using hI.once
          · simpa [Pc.announcing] using hI.flags
      change Known k (handshake s.shared r).1 (s.cos ++ (handshake s.shared r).2)
      rw [hd]
      exact hnew.perm List.perm_append_comm
    · have hI' : Known k s.shared (pc :: (l ++ rest)) := hI.perm (hcos ▸ List.perm_middle)
      have hout := hI'.segment ho fun a ha hk pc' hpc' => by
        have hC' := hC
        simp only [Apart, hpc, ha] at hC'
        exact hC' hk pc' (hcos ▸ List.mem_append.2 ((List.mem_append.1 hpc').imp_right
          (List.mem_cons_of_mem _)))
      refine hout.perm ?_
      exact (Machine.perm_front _ _ _).symm

/-- **One identity, one account**: in every run in which nobody looks the identity up while somebody
else, who has not found it, is about to register it. -/
theorem oneAccount_of_apart (h : (machine E).Reach (Apart k) start s) :
    OneAccount k s.shared.hist := by
  have hk := known_of_apart h
  have hone : (idsOf k s.shared.hist).length ≤ 1 := (Nat.le_add_left _ _).trans hk.once
  refine ⟨hone, fun user hu => ?_, ?_⟩
  · have hid := mem_idsOf.2 (hk.returned k user hu)
    obtain ⟨id, hl⟩ := List.length_eq_one_iff.1 (le_antisymm hone (List.length_pos_of_mem hid))
    rw [hl] at hid ⊢
    rw [List.mem_singleton.1 hid]
  · exact ((Nat.le_add_left _ _).trans hk.flags).trans hone

/-- **Every script that a handshake waits for comes to an end.** -/
theorem segment_returns (h : (machine E).Reach (Apart k) start s) {i : ℕ} {pc : Pc}
    (hi : s.cos[i]? = some pc) (inp : Inp) :
    ∃ N, ∀ n, N ≤ n → ((machine E).exec s (.resume i { inp with rounds := n })).isSome = true := by
  have hs := (known_of_apart h).stored
  suffices hseg : ∃ N, ∀ n,
    N ≤ n → (Auth.segment E s.shared { inp with rounds := n } pc).isSome = true by
    obtain ⟨N, hN⟩ := hseg
    refine ⟨N, fun n hn => ?_⟩
    simp only [Machine.exec, hi, Option.isSome_map]
    exact hN n hn
  cases pc with
  | query a =>
      obtain ⟨N, hN⟩ := hs.query3rd_returns (E := E) a.third
      refine ⟨N, fun n hn => ?_⟩
      rw [Auth.segment]
      split
      · exact Option.isSome_map.trans (hN n hn)
      · rfl
  | register a base uinfo =>
      obtain ⟨N, hN⟩ := hs.register3rd_returns (E := E) a.third base uinfo
      refine ⟨N, fun n hn => ?_⟩
      rw [Auth.segment]
      split
      · rfl
      · exact Option.isSome_map.trans (hN n hn)
  | _ =>
      refine ⟨0, fun n _ => ?_⟩
      rw [Auth.segment]
      repeat' split
      all_goals rfl

end Runs

/-! ### The base that a handshake carries -/

/-- The number of the account and its base, as a handshake has read or made them. -/
def Pc.base? : Pc → Option (ℕ × Base)
  | .stat _ id base _ | .refresh _ id base => some (id, base)
  | _ => none

/-- **What a segment does to the accounts**: a base stays what it is; and a base that a handshake
carries on, or has returned, it has carried before, or it is the one in the store. -/
structure Reads (E : Env) (d d' : Db) (pc : Pc) (l : List Pc) : Prop where
  stored : ∃ accounts, Stored d'.store accounts
  counted : Counted d'.store
  keeps : ∀ id base, BaseOf E d.store id base → BaseOf E d'.store id base
  carries : ∀ pc' ∈ l, ∀ e, pc'.base? = some e → pc.base? = some e ∨ BaseOf E d'.store e.1 e.2
  returns : ∀ k user, .succeeded k user ∈ d'.hist → .succeeded k user ∈ d.hist ∨
    ∃ base, base.forbidden = user.forbidden ∧
      (pc.base? = some (user.id, base) ∨ BaseOf E d'.store user.id base)

section Bases

variable {E : Env} {d d' : Db} {pc : Pc} {l : List Pc} {accounts : List (Ident × ℕ)}

/-- A segment that leaves the accounts alone. -/
theorem Reads.silent (hs : Stored d.store accounts) (hc : Counted d.store)
    (hl : ∀ pc' ∈ l, pc'.base? = none) : Reads E d d pc l where
  stored := ⟨_, hs⟩
  counted := hc
  keeps _ _ h := h
  carries pc' hpc' e he := by
    rw [hl pc' hpc'] at he
    cases he
  returns _ _ h := Or.inl h

/-- A handshake ends. -/
theorem Reads.finish {a : Signing} {id : ℕ} {new : Bool} {base : Base} {secret : String}
    {uinfo : Option Uinfo} (hs : Stored d.store accounts) (hc : Counted d.store)
    (hb : pc.base? = some (id, base) ∨ BaseOf E d.store id base)
    (hf : finish d a new id base secret uinfo = (d', l)) : Reads E d d' pc l := by
  cases uinfo with
  | none =>
      obtain ⟨rfl, rfl⟩ := Prod.mk.inj hf
      exact .silent hs hc (by simp)
  | some uinfo =>
      obtain ⟨rfl, rfl⟩ := Prod.mk.inj hf
      refine ⟨⟨_, hs⟩, hc, fun _ _ h => h, by simp, fun k user hu => ?_⟩
      rcases List.mem_cons.1 hu with he | hu
      · obtain ⟨-, rfl⟩ := Event.succeeded.inj he
        exact Or.inr ⟨base, rfl, hb⟩
      · exact Or.inl hu

/-- The store changes, but no base. -/
theorem Reads.trans {d₁ : Db} (h : Reads E d₁ d' pc l)
    (hkeeps : ∀ id base, BaseOf E d.store id base → BaseOf E d₁.store id base)
    (hhist : d₁.hist = d.hist) : Reads E d d' pc l where
  stored := h.stored
  counted := h.counted
  keeps id base hb := h.keeps id base (hkeeps id base hb)
  carries := h.carries
  returns := hhist ▸ h.returns

/-- **What a segment does to the accounts.** -/
theorem reads_segment {inp : Inp} (hs : Stored d.store accounts) (hc : Counted d.store)
    (hseg : segment E d inp pc = some (d', l)) : Reads E d d' pc l := by
  -- a handshake that ends
  have ends : some (d, []) = some (d', l) → Reads E d d' pc l := by
    intro he
    obtain ⟨rfl, rfl⟩ := Prod.mk.inj (Option.some.inj he)
    exact .silent hs hc (by simp)
  cases pc with
  | auth =>
      rw [Auth.segment] at hseg
      split at hseg
      · obtain ⟨rfl, rfl⟩ := Prod.mk.inj (Option.some.inj hseg)
        exact .silent hs hc (by simp [Pc.base?])
      · exact ends hseg
  | query a =>
      rw [Auth.segment] at hseg
      split at hseg
      · obtain ⟨q, hq, he⟩ := Option.map_eq_some_iff.1 hseg
        cases q with
        | missing =>
            obtain ⟨rfl, rfl⟩ := Prod.mk.inj he
            exact .silent hs hc (by simp [Pc.base?])
        | found id base uinfo =>
            have hb := hs.found_base hq
            rw [queried] at he
            split at he
            · exact .finish hs hc (Or.inr hb) he
            · obtain ⟨rfl, rfl⟩ := Prod.mk.inj he
              refine ⟨⟨_, hs⟩, hc, fun _ _ h => h, fun pc' hpc' e he => ?_, fun _ _ h => Or.inl h⟩
              obtain rfl := List.mem_singleton.1 hpc'
              obtain rfl := Option.some.inj he
              exact Or.inr hb
        | raised => exact ends (congrArg some he)
      · exact ends hseg
  | username a =>
      have silent : ∀ l, (∀ pc' ∈ l, pc'.base? = none) →
          Reads E d { d with store := (uniqueUsername E d.store).1 } (.username a) l := by
        intro l hl
        have h : Reads E { d with store := (uniqueUsername E d.store).1 }
            { d with store := (uniqueUsername E d.store).1 } (.username a) l :=
          .silent (hs.uniqueUsername (E := E)) (hc.uniqueUsername (E := E)) hl
        exact h.trans (fun _ _ => baseOf_uniqueUsername.2) rfl
      rw [Auth.segment] at hseg
      split at hseg
      · exact ends hseg
      · obtain ⟨rfl, rfl⟩ := Prod.mk.inj (Option.some.inj hseg)
        exact silent [] (by simp)
      · obtain ⟨rfl, rfl⟩ := Prod.mk.inj (Option.some.inj hseg)
        exact silent [_] (by simp [Pc.base?])
  | register a base uinfo =>
      rw [Auth.segment] at hseg
      split at hseg
      · exact ends hseg
      · obtain ⟨⟨r, id⟩, hr, he⟩ := Option.map_eq_some_iff.1 hseg
        obtain ⟨rfl, rfl⟩ := Prod.mk.inj he
        refine ⟨⟨_, hs.register3rd hr⟩, hc.register3rd hr, ?_, ?_, ?_⟩
        · exact fun id' base' hb => (baseOf_register3rd hc hr).2 (Or.inl hb)
        · intro pc' hpc' e he
          split at hpc'
          · obtain rfl := List.mem_singleton.1 hpc'
            obtain rfl := Option.some.inj he
            exact Or.inr ((baseOf_register3rd hc hr).2 (Or.inr ⟨rfl, rfl⟩))
          · exact absurd hpc' List.not_mem_nil
        · exact fun k user hu => Or.inl (by simpa using hu)
  | stat a id base uinfo =>
      rw [Auth.segment] at hseg
      split at hseg
      · exact .finish hs hc (Or.inl rfl) (Option.some.inj hseg)
      · exact ends hseg
  | refresh a id base =>
      -- the store in which the records are refreshed
      have trans : ∀ {l'}, Reads E { d with store := refresh3rd E d.store id a.third a.uinfo } d'
          (.refresh a id base) l' → Reads E d d' (.refresh a id base) l' :=
        fun h => h.trans (fun _ _ => baseOf_refresh3rd.2) rfl
      have hs' : Stored (refresh3rd E d.store id a.third a.uinfo) accounts := hs.refresh3rd _ _ _
      have hc' : Counted (refresh3rd E d.store id a.third a.uinfo) := hc.refresh3rd _ _ _
      rw [Auth.segment] at hseg
      split at hseg
      · exact ends hseg
      · split at hseg
        · exact trans (.finish hs' hc' (Or.inl rfl) (Option.some.inj hseg))
        · obtain ⟨rfl, rfl⟩ := Prod.mk.inj (Option.some.inj hseg)
          exact trans (.silent hs' hc' (by simp))

end Bases

/-! ### The witness and the counterexample -/

/-- Records that are written as lists of strings. -/
def strings : Env where
  base := Codec.strings.via (fun b => [b.uname, if b.forbidden then "1" else "0"])
    (fun | [uname, f] => some ⟨uname, f == "1"⟩ | _ => none)
    (by rintro ⟨uname, _ | _⟩ <;> rfl)
  uinfo := Codec.strings.via (fun u => [u.uname, u.sex.repr, u.head])
    (fun | [uname, sex, head] => sex.toNat?.map fun sex => ⟨uname, sex, head⟩ | _ => none)
    (fun u => by simp)
  third := Codec.strings.via (fun t => [t.name, t.uid, t.rtk])
    (fun | [name, uid, rtk] => some ⟨name, uid, rtk⟩ | _ => none) (fun _ => rfl)
  username := Nat.repr

/-- Two guests sign in at the same time. -/
theorem oneAccount_guests : ∃ s, ((machine strings).Reach (Apart ("guest", "c")) start s ∧
    (s.shared.hist.length = 4 ∧ s.cos.length = 0)) ∧ OneAccount ("guest", "c") s.shared.hist := by
  obtain ⟨s, hs, hp⟩ := Machine.exists_reach (M := machine strings) (C := Apart ("guest", "c"))
    (i := start)
    [.call (.guest "c") {}, .call (.guest "d") {}, .resume 0 { rounds := 1 },
      .resume 1 { rounds := 1 }, .resume 0 {}, .resume 1 {}, .resume 0 { rounds := 1 },
      .resume 1 { rounds := 1 }, .resume 0 {}, .resume 0 {}]
    (p := fun s => decide (s.shared.hist.length = 4 ∧ s.cos.length = 0)) (by decide +kernel)
  exact ⟨s, ⟨hs, of_decide_eq_true hp⟩, oneAccount_of_apart hs⟩

/-- **Two handshakes at the same time make two accounts.** -/
theorem two_accounts : ¬ ∀ (E : Env) (k : Ident) (s : Sys),
    (machine E).Reach (fun _ _ => True) start s → OneAccount k s.shared.hist := by
  intro hall
  obtain ⟨s, hs, hp⟩ := Machine.exists_reach (M := machine strings) (C := fun _ _ => True)
    (i := start)
    [.call (.guest "c") {}, .call (.guest "c") {}, .resume 0 { rounds := 1 },
      .resume 1 { rounds := 1 }, .resume 0 {}, .resume 1 {}, .resume 0 { rounds := 1 },
      .resume 1 { rounds := 1 }]
    (p := fun s => decide ((idsOf ("guest", "c") s.shared.hist).length = 2)) (by decide +kernel)
  have h := (hall strings ("guest", "c") s hs).created
  rw [of_decide_eq_true hp] at h
  exact absurd h (by decide)

end Halieutics.Auth
