/-
**Signing in at a gate: `cli:signin`.**

The handler calls three other services, and between its calls anything may happen to the tables of
the gate.  It has six ends: five errors and the sign-in.  Whether a refused client leaves a trace
depends on what the handler has done before it finds the error: `fetch_user` moves a user from the
cache to `data.users`, and the time-out timer of a user is removed before his secret is compared.

Main definitions:

* `Halieutics.Gate.Signin` — the handler at its calls and at its ends;
* `Halieutics.Gate.Signin.resume` — its segments;
* `Halieutics.Gate.TracelessError` — **a sign-in that returns an error has changed nothing**;
* `Halieutics.Gate.KeptIfRefused` — the condition: a user who is cached or has a timer is not
  refused once he is found.

Main results:

* `Halieutics.Gate.segment_signin` — these are the segments of the gate's machine;
* `Halieutics.Gate.tracelessError_iff` — **an error leaves no trace exactly if the condition
  holds**;
* `Halieutics.Gate.wrong_secret_removes_timer` — a wrong secret stops the timer of the genuine user.
-/

import Halieutics.GateEvents

set_option relaxedAutoImplicit false
set_option autoImplicit false

namespace Halieutics.Gate

open LuaTable

/-! ### The handler -/

/-- What the client sends. -/
structure SigninMsg where
  userid : Option ℕ := none
  secret : Option ℕ := none

/-- The errors that are returned: `em.shutdown` and the fields `err` of the others. -/
inductive Err where
  | shutdown | otherLogin | secretExpire | invalidSecret | repeatLogin
  deriving DecidableEq, Repr

/-- `cli:signin` at `watchdog.secret`, at `login.restore` and at `watchdog.kick`, and its ends: it
has returned, with an error or without one, or it has raised. -/
inductive Signin where
  | atSecret (id secret : ℕ)
  | atRestore (u : Ref)
  | atKick (u : Ref)
  | returned (err : Option Err)
  | raised
  deriving DecidableEq, Repr

/-- How a call ends: it raises, or it returns what the other service answers. -/
structure Answer where
  raised : Bool := false
  secret : Option ℕ := none
  restored : Bool := true

/-- The segment before the first call. -/
def Signin.begin (shutdown : Bool) (msg : SigninMsg) : Signin :=
  if shutdown then .returned (some .shutdown)
  else
    match msg.userid, msg.secret with
    | some id, some secret => .atSecret id secret
    | _, _ => .raised

/-- `cli:signin` from `fetch_user` on. -/
def Data.check (d : Data) (id secret : ℕ) : Data × Signin :=
  let d := d.fetchUser id
  match d.users.lookup id with
  | none => (d, .returned (some .secretExpire))
  | some u =>
      let d := d.removeTimer u
      if (d.objs u).secret ≠ secret then (d, .returned (some .invalidSecret))
      else
        match (d.objs u).state with
        | .afk => (d, .atRestore u)
        | .ok => (d, .atKick u)
        | .wait => (d.setState u .ok, .returned none)

/-- **The segments after the calls.** -/
def Signin.resume (d : Data) (ans : Answer) : Signin → Data × Signin
  | .atSecret id secret =>
      if ans.raised then (d, .raised)
      else
        match ans.secret with
        | some s => if s ≠ secret then (d, .returned (some .otherLogin)) else d.check id secret
        | none => d.check id secret
  | .atRestore u =>
      if ans.raised then (d, .raised)
      else if ans.restored then (d.setState u .ok, .returned none)
      else (d, .returned (some .repeatLogin))
  | .atKick u => if ans.raised then (d, .raised) else (d.setState u .ok, .returned none)
  | .returned err => (d, .returned err)
  | .raised => (d, .raised)

/-! ### The handler on the gate -/

/-- The handler among the coroutines of the gate. -/
def Signin.pc (fd : ℕ) : Signin → Option Pc
  | .atSecret id secret => some (.secret fd id secret)
  | .atRestore u => some (.restore fd u)
  | .atKick u => some (.kickAgent fd u)
  | .returned _ | .raised => none

/-- What the calls answer on the gate: `login.restore` refuses a user who is online. -/
def Service.answer (g : Service) (inp : Inp) : Signin → Answer
  | .atRestore u =>
      { raised := inp.raised, restored := (g.online.lookup (g.data.objs u).id).isNone }
  | _ => { raised := inp.raised, secret := inp.secret }

theorem signin_check (g : Service) (fd id secret : ℕ) :
    (g.signin fd id secret).1.data = (g.data.check id secret).1 ∧
      (g.signin fd id secret).2 = ((g.data.check id secret).2.pc fd).toList := by
  unfold Service.signin Data.signin Data.check
  dsimp only
  rcases (g.data.fetchUser id).users.lookup id with _ | u
  · exact ⟨rfl, rfl⟩
  · dsimp only
    by_cases hs : ((g.data.fetchUser id).objs u).secret = secret
    · have hs' : ¬ (((g.data.fetchUser id).removeTimer u).objs u).secret ≠ secret :=
        not_not_intro hs
      rw [if_pos hs, if_neg hs']
      dsimp only
      cases (((g.data.fetchUser id).removeTimer u).objs u).state with
      | wait => exact ⟨rfl, rfl⟩
      | ok => exact ⟨rfl, rfl⟩
      | afk => exact ⟨rfl, rfl⟩
    · have hs' : (((g.data.fetchUser id).removeTimer u).objs u).secret ≠ secret := hs
      rw [if_neg hs, if_pos hs']
      exact ⟨rfl, rfl⟩

/-- **The segments of the handler are those of the gate's machine.** -/
theorem segment_signin (g : Service) (inp : Inp) (fd : ℕ) {h : Signin} {pc : Pc}
    (hpc : h.pc fd = some pc) :
    (segment g inp pc).1.data = (h.resume g.data (g.answer inp h)).1 ∧
      (segment g inp pc).2 = ((h.resume g.data (g.answer inp h)).2.pc fd).toList := by
  cases h with
  | atSecret id secret =>
      cases hpc
      unfold segment Signin.resume Service.answer
      dsimp only
      by_cases hr : inp.raised = true
      · rw [if_pos hr, if_pos hr]
        exact ⟨rfl, rfl⟩
      · rw [if_neg hr, if_neg hr]
        cases inp.secret with
        | none => exact signin_check g fd id secret
        | some s =>
            dsimp only
            by_cases hs : s = secret
            · rw [if_pos hs, if_neg (not_not_intro hs)]
              exact signin_check g fd id secret
            · rw [if_neg hs, if_pos hs]
              exact ⟨rfl, rfl⟩
  | atRestore u =>
      cases hpc
      unfold segment Signin.resume Service.answer
      dsimp only
      cases inp.raised with
      | true => exact ⟨rfl, rfl⟩
      | false =>
          by_cases ho : (g.online.lookup (g.data.objs u).id).isSome = true
          · simp [ho, Signin.pc, Option.isNone_eq_false_iff.2 ho]
          · simp [Signin.pc, Option.not_isSome_iff_eq_none.1 ho, Service.signed, Service.setSock]
  | atKick u =>
      cases hpc
      unfold segment Signin.resume Service.answer
      dsimp only
      cases inp.raised with
      | true => exact ⟨rfl, rfl⟩
      | false => exact ⟨rfl, rfl⟩
  | returned err => cases hpc
  | raised => cases hpc

/-! ### Errors and their traces -/

/-- Where the handler stands after the calls that have ended, each with the tables it finds. -/
def Signin.run (h : Signin) : List (Data × Answer) → Signin
  | [] => h
  | (d, ans) :: rest => (h.resume d ans).2.run rest

/-- The tables before and after each segment. -/
def Signin.changes (h : Signin) : List (Data × Answer) → List (Data × Data)
  | [] => []
  | (d, ans) :: rest => (d, (h.resume d ans).1) :: (h.resume d ans).2.changes rest

/-- `data.users`, `data.ucache`, the states of the users and the timers are as before. -/
structure Data.Untouched (d d' : Data) : Prop where
  users : ∀ id, d'.users.lookup id = d.users.lookup id
  ucache : ∀ id, d'.ucache.lookup id = d.ucache.lookup id
  states : ∀ u, (d'.objs u).state = (d.objs u).state
  timers : ∀ u, u ∈ d'.timers ↔ u ∈ d.timers

/-- If the handler returns an error, none of its segments has changed anything. -/
def Signin.Traceless (h : Signin) (calls : List (Data × Answer)) : Prop :=
  ∀ err, h.run calls = .returned (some err) → ∀ c ∈ h.changes calls, c.1.Untouched c.2

/-- **A sign-in that returns an error has changed nothing.** -/
def TracelessError (shutdown : Bool) (msg : SigninMsg) (calls : List (Data × Answer)) : Prop :=
  (Signin.begin shutdown msg).Traceless calls

/-- The user that `fetch_user` returns. -/
def Data.found (d : Data) (id : ℕ) : Option Ref := (d.users.lookup id).or (d.ucache.lookup id)

/-- Finding the user changes the tables: he is in the cache, or he has a timer. -/
def Data.Stirs (d : Data) (id : ℕ) (u : Ref) : Prop := d.users.lookup id = none ∨ u ∈ d.timers

/-- `login.restore` answers that the user cannot be restored. -/
def refuses : List (Data × Answer) → Prop
  | [] => False
  | (_, ans) :: _ => ans.raised = false ∧ ans.restored = false

/-- **The condition**: if `watchdog.secret` lets the client pass, and if the user is found and is in
the cache or has a timer, then his secret is the one that was sent, and `login.restore` does not
refuse him if he is `afk`. -/
def KeptIfRefused (id secret : ℕ) : List (Data × Answer) → Prop
  | [] => True
  | (d, ans) :: rest =>
      ans.raised = false → ans.secret = none ∨ ans.secret = some secret →
        ∀ u, d.found id = some u → d.Stirs id u →
          (d.objs u).secret = secret ∧ ((d.objs u).state = .afk → ¬ refuses rest)

theorem Data.Untouched.refl (d : Data) : d.Untouched d :=
  ⟨fun _ => rfl, fun _ => rfl, fun _ => rfl, fun _ => Iff.rfl⟩

/-- A handler that has ended changes nothing. -/
theorem changes_returned (err : Option Err) (calls : List (Data × Answer)) :
    (Signin.returned err).run calls = .returned err ∧
      ∀ c ∈ (Signin.returned err).changes calls, c.1.Untouched c.2 := by
  induction calls with
  | nil => exact ⟨rfl, List.forall_mem_nil _⟩
  | cons call rest ih =>
      obtain ⟨d, ans⟩ := call
      exact ⟨ih.1, List.forall_mem_cons.2 ⟨.refl d, ih.2⟩⟩

theorem run_raised (calls : List (Data × Answer)) : Signin.raised.run calls = .raised := by
  induction calls with
  | nil => rfl
  | cons call rest ih => exact ih

/-- **`fetch_user`**: the tables, and where the user is then. -/
theorem fetchUser_found (d : Data) (id : ℕ) :
    (d.fetchUser id).users.lookup id = d.found id ∧ (d.fetchUser id).objs = d.objs ∧
      (d.fetchUser id).timers = d.timers ∧ (d.users.lookup id ≠ none → d.fetchUser id = d) := by
  unfold Data.fetchUser Data.found
  cases hu : d.users.lookup id with
  | some u => exact ⟨hu, rfl, rfl, fun _ => rfl⟩
  | none =>
      cases hc : d.ucache.lookup id with
      | none => exact ⟨hu, rfl, rfl, fun _ => rfl⟩
      | some u => exact ⟨AList.lookup_insert _, rfl, rfl, fun h => absurd rfl h⟩

theorem fetchUser_of_none {d : Data} {id : ℕ} (h : d.found id = none) : d.fetchUser id = d := by
  unfold Data.found at h
  obtain ⟨hu, hc⟩ := Option.or_eq_none_iff.1 h
  unfold Data.fetchUser
  rw [hu, hc]

/-- What is done to a user who is found leaves the tables as they are, unless he is in the cache or
has a timer. -/
theorem untouched_iff {d : Data} {id : ℕ} {u : Ref} (h : d.found id = some u) :
    d.Untouched ((d.fetchUser id).removeTimer u) ↔ ¬ d.Stirs id u := by
  obtain ⟨hlook, hobjs, htimers, hsame⟩ := fetchUser_found d id
  constructor
  · rintro hd (hnone | htimer)
    · have heq : d.found id = d.users.lookup id := hlook.symm.trans (hd.users id)
      rw [hnone, h] at heq
      cases heq
    · have hmem := (hd.timers u).2 htimer
      exact absurd rfl (of_decide_eq_true (List.mem_filter.1 hmem).2)
  · intro hst
    obtain ⟨hsome, hfree⟩ := not_or.1 hst
    rw [hsame hsome]
    refine ⟨fun _ => rfl, fun _ => rfl, fun _ => rfl,
      fun t => ⟨List.mem_of_mem_filter, fun ht => ?_⟩⟩
    refine List.mem_filter.2 ⟨ht, decide_eq_true ?_⟩
    rintro rfl
    exact hfree ht

/-- What happens to a user who is found. -/
theorem check_found {d : Data} {id secret : ℕ} {u : Ref} (h : d.found id = some u) :
    d.check id secret =
      if (d.objs u).secret ≠ secret then
        ((d.fetchUser id).removeTimer u, .returned (some .invalidSecret))
      else
        match (d.objs u).state with
        | .afk => ((d.fetchUser id).removeTimer u, .atRestore u)
        | .ok => ((d.fetchUser id).removeTimer u, .atKick u)
        | .wait => (((d.fetchUser id).removeTimer u).setState u .ok, .returned none) := by
  obtain ⟨hlook, hobjs, -⟩ := fetchUser_found d id
  have hobj : ((d.fetchUser id).removeTimer u).objs u = d.objs u := congrFun hobjs u
  unfold Data.check
  dsimp only
  rw [hlook, h]
  dsimp only
  rw [hobj]

/-- The calls after the check of the secret, for a user who is found. -/
def Data.ErrorsKeep (d : Data) (id secret : ℕ) (rest : List (Data × Answer)) : Prop :=
  ∀ err, (d.check id secret).2.run rest = .returned (some err) →
    ∀ c ∈ (d, (d.check id secret).1) :: (d.check id secret).2.changes rest, c.1.Untouched c.2

/-- After `login.restore`. -/
theorem run_restore (u : Ref) (rest : List (Data × Answer)) :
    ((∃ err, (Signin.atRestore u).run rest = .returned (some err)) ↔ refuses rest) ∧
      (refuses rest → ∀ c ∈ (Signin.atRestore u).changes rest, c.1.Untouched c.2) := by
  cases rest with
  | nil => exact ⟨⟨fun ⟨err, he⟩ => (by cases he), False.elim⟩, False.elim⟩
  | cons call rest =>
      obtain ⟨e, ⟨raised, secret, restored⟩⟩ := call
      cases raised with
      | true =>
          refine ⟨⟨fun ⟨err, he⟩ => ?_, fun h => (by cases h.1)⟩, fun h => (by cases h.1)⟩
          have hrun := run_raised rest
          exact absurd (he.symm.trans hrun) (by simp)
      | false =>
          cases restored with
          | true =>
              refine ⟨⟨fun ⟨err, he⟩ => ?_, fun h => (by cases h.2)⟩, fun h => (by cases h.2)⟩
              have hrun := (changes_returned none rest).1
              exact absurd (he.symm.trans hrun) (by simp)
          | false =>
              obtain ⟨hrun, hch⟩ := changes_returned (some .repeatLogin) rest
              exact ⟨⟨fun _ => ⟨rfl, rfl⟩, fun _ => ⟨_, hrun⟩⟩, fun _ =>
                List.forall_mem_cons.2 ⟨.refl e, hch⟩⟩

/-- After `watchdog.kick` no error is returned. -/
theorem run_kick (u : Ref) (rest : List (Data × Answer)) (err : Err) :
    (Signin.atKick u).run rest ≠ .returned (some err) := by
  cases rest with
  | nil => exact nofun
  | cons call rest =>
      obtain ⟨e, ⟨raised, secret, restored⟩⟩ := call
      intro he
      cases raised with
      | true => exact absurd (he.symm.trans (run_raised rest)) (by simp)
      | false => exact absurd (he.symm.trans (changes_returned none rest).1) (by simp)

/-- **A user who is found**: the errors leave no trace if finding him did not, or if there are
none. -/
theorem errorsKeep_found {d : Data} {id secret : ℕ} {u : Ref} {rest : List (Data × Answer)}
    (h : d.found id = some u) :
    d.ErrorsKeep id secret rest ↔
      (d.Stirs id u → (d.objs u).secret = secret ∧ ((d.objs u).state = .afk → ¬ refuses rest)) := by
  have hiff := untouched_iff h
  unfold Data.ErrorsKeep
  rw [check_found h]
  by_cases hs : (d.objs u).secret = secret
  · rw [if_neg (not_not_intro hs)]
    cases hst : (d.objs u).state with
    | wait =>
        have hrun := (changes_returned none rest).1
        exact ⟨fun _ _ => ⟨hs, nofun⟩, fun _ err he => absurd (he.symm.trans hrun) (by simp)⟩
    | ok => exact ⟨fun _ _ => ⟨hs, nofun⟩, fun _ err he => absurd he (run_kick u rest err)⟩
    | afk =>
        obtain ⟨herr, hch⟩ := run_restore u rest
        constructor
        · intro hk hstir
          refine ⟨hs, fun _ href => ?_⟩
          obtain ⟨err, he⟩ := herr.2 href
          exact hiff.1 (List.forall_mem_cons.1 (hk err he)).1 hstir
        · intro hk err he
          have href := herr.1 ⟨err, he⟩
          exact List.forall_mem_cons.2 ⟨hiff.2 fun hstir => (hk hstir).2 rfl href, hch href⟩
  · rw [if_pos hs]
    obtain ⟨hrun, hch⟩ := changes_returned (some .invalidSecret) rest
    constructor
    · intro hk hstir
      exact absurd hstir (hiff.1 (List.forall_mem_cons.1 (hk _ hrun)).1)
    · intro hk err he
      exact List.forall_mem_cons.2 ⟨hiff.2 fun hstir => hs (hk hstir).1, hch⟩

theorem errorsKeep_none {d : Data} {id secret : ℕ} (rest : List (Data × Answer))
    (h : d.found id = none) : d.ErrorsKeep id secret rest := by
  have hcheck : d.check id secret = (d, .returned (some .secretExpire)) := by
    unfold Data.check
    dsimp only
    rw [(fetchUser_found d id).1, h, fetchUser_of_none h]
  intro err he
  rw [hcheck]
  exact List.forall_mem_cons.2 ⟨.refl d, (changes_returned _ rest).2⟩

theorem errorsKeep_iff {d : Data} {id secret : ℕ} {rest : List (Data × Answer)} :
    d.ErrorsKeep id secret rest ↔ ∀ u, d.found id = some u → d.Stirs id u →
      (d.objs u).secret = secret ∧ ((d.objs u).state = .afk → ¬ refuses rest) := by
  cases h : d.found id with
  | none => exact ⟨fun _ u hu => (by cases hu), fun _ => errorsKeep_none rest h⟩
  | some u =>
      rw [errorsKeep_found h]
      exact ⟨fun hk v hv => Option.some_inj.1 hv ▸ hk, fun hk => hk u rfl⟩

/-- A handler that raises returns no error. -/
theorem traceless_raised (calls : List (Data × Answer)) : Signin.raised.Traceless calls := by
  intro err he
  rw [run_raised] at he
  cases he

/-- **The handler after its first segment.** -/
theorem traceless_atSecret_iff (id secret : ℕ) (calls : List (Data × Answer)) :
    (Signin.atSecret id secret).Traceless calls ↔ KeptIfRefused id secret calls := by
  cases calls with
  | nil => exact ⟨fun _ => trivial, fun _ err he => nomatch he⟩
  | cons call rest =>
      obtain ⟨d, ⟨raised, ans, restored⟩⟩ := call
      cases raised with
      | true =>
          refine ⟨fun _ => nofun, fun _ err he => ?_⟩
          have hrun : Signin.raised.run rest = .returned (some err) := he
          rw [run_raised] at hrun
          cases hrun
      | false =>
          cases ans with
          | none => exact errorsKeep_iff.trans ⟨fun h _ _ => h, fun h => h rfl (Or.inl rfl)⟩
          | some s =>
              by_cases hs : s = secret
              · subst hs
                have hcheck : (Signin.atSecret id s).resume d ⟨false, some s, restored⟩ =
                    d.check id s := by
                  simp [Signin.resume]
                unfold Signin.Traceless Signin.run Signin.changes
                rw [hcheck]
                exact errorsKeep_iff.trans ⟨fun h _ _ => h, fun h => h rfl (Or.inr rfl)⟩
              · have hother : (Signin.atSecret id secret).resume d ⟨false, some s, restored⟩ =
                    (d, .returned (some .otherLogin)) := by
                  simp [Signin.resume, hs]
                refine ⟨fun _ _ h => ?_, fun _ err _ => ?_⟩
                · rcases h with h | h
                  · cases h
                  · exact absurd (Option.some_inj.1 h) hs
                · unfold Signin.changes
                  rw [hother]
                  exact List.forall_mem_cons.2 ⟨.refl d, (changes_returned _ rest).2⟩

/-- **An error leaves no trace exactly if the condition holds**, whatever happens to the tables of
the gate during the calls. -/
theorem tracelessError_iff (shutdown : Bool) (msg : SigninMsg) (calls : List (Data × Answer)) :
    TracelessError shutdown msg calls ↔
      (shutdown = false → ∀ id secret, msg = ⟨some id, some secret⟩ →
        KeptIfRefused id secret calls) := by
  cases shutdown with
  | true => exact ⟨fun _ => nofun, fun _ err _ => (changes_returned _ calls).2⟩
  | false =>
      obtain ⟨userid, secret⟩ := msg
      cases userid with
      | none => exact ⟨fun _ _ => nofun, fun _ => traceless_raised calls⟩
      | some id =>
          cases secret with
          | none => exact ⟨fun _ _ => nofun, fun _ => traceless_raised calls⟩
          | some secret =>
              refine (traceless_atSecret_iff id secret calls).trans ⟨fun h _ id' secret' heq => ?_,
                fun h => h rfl id secret rfl⟩
              obtain ⟨rfl, rfl⟩ : id = id' ∧ secret = secret' := by simpa using heq
              exact h

/-- The user 7 has been announced with the secret 111; a client who sends 222 is refused, and the
timer of the user is gone. -/
theorem wrong_secret_removes_timer :
    ¬ TracelessError false ⟨some 7, some 222⟩ [((({} : Data).login 7 111), {})] := by
  rw [tracelessError_iff]
  intro h
  have hsecret := (h rfl 7 222 rfl rfl (Or.inl rfl) 0 (by decide) (Or.inr (by decide))).1
  exact absurd hsecret (by decide)

end Halieutics.Gate
