/-
**Who is banned stays out.**

When `misc.blacklist` has set the flag, no handshake lets the user pass any more; when
`watchdog.try_kick` has reached him, he is on no gate and on no agent.  What remains are those who
have passed one of these points before: a login after its handshake, a user on a gate whom the
watchdog does not know yet, a sign-in that the gate has let in.  If there are none of them, nothing
that happens afterwards lets the user in.

Main definitions:

* `Halieutics.Misc.Course` — the course of `misc.blacklist`;
* `Halieutics.Misc.Guarded` — **the invariant**.

Main results:

* `Halieutics.Misc.Guarded.step` — every step that meets the condition keeps it;
* `Halieutics.Misc.effective_of_apart` — **a ban is effective**, in every run that meets the
  condition;
* `Halieutics.Misc.signin_after_ban` — a login that has passed the handshake signs in after the ban.
-/

import Halieutics.MiscKeeps

set_option relaxedAutoImplicit false
set_option autoImplicit false

namespace Halieutics.Misc

open Coroutine LuaTable
open Watchdog (Client)

/-! ### The course of a ban -/

/-- **The course of `misc.blacklist`**, and where the user may still be. -/
inductive Course (id : ℕ) (w : World) : Coro → Prop
  | ask : Course id w ⟨.request (.blacklist id), []⟩
  | flag : Course id w ⟨.request (.accFlag id true), [.flagging id]⟩
  | readReq : Course id w ⟨.request .external, [.accRead id true, .flagging id]⟩
  | readAns (ans : Ans) : Course id w ⟨.answer ans, [.accRead id true, .flagging id]⟩
  | writeReq {base : Accdb.Base} (hb : base.forbidden = true) :
      Course id w ⟨.request .external, [.accWrite id base, .flagging id]⟩
  | writeAns {base : Accdb.Base} (hb : base.forbidden = true) (ans : Ans) :
      Course id w ⟨.answer ans, [.accWrite id base, .flagging id]⟩
  | flagged {ans : Ans} (ha : ans ≠ .bool false) : Course id w ⟨.answer ans, [.flagging id]⟩
  | lookup : Course id w ⟨.request (.wd (.tryKick id)), [.kicking id]⟩
  | agentReq {u : Watchdog.Ref} (hu : Sole id w.wd u)
      (hl : Left id w (some (w.wd.recs u).agent) (some (w.wd.recs u).gate)) :
      Course id w ⟨.request (.agentKick (w.wd.recs u).agent id true),
        [.wd (.kickAgent id u true), .kicking id]⟩
  | agentAns {u : Watchdog.Ref} {ans : Ans} (hu : Sole id w.wd u)
      (hl : ans.failed = false → Left id w none (some (w.wd.recs u).gate)) :
      Course id w ⟨.answer ans, [.wd (.kickAgent id u true), .kicking id]⟩
  | closeReq {u : Watchdog.Ref} (a : ℕ) (hu : Sole id w.wd u)
      (hl : Left id w none (some (w.wd.recs u).gate)) :
      Course id w ⟨.request (.agentClose a), [.wd (.kickClose id u true), .kicking id]⟩
  | closeAns {u : Watchdog.Ref} (ans : Ans) (hu : Sole id w.wd u)
      (hl : Left id w none (some (w.wd.recs u).gate)) :
      Course id w ⟨.answer ans, [.wd (.kickClose id u true), .kicking id]⟩
  | gateReq {g : ℕ} (hl : Left id w none (some g)) :
      Course id w ⟨.request (.gateKick g id), [.wd (.gateKick id g true), .kicking id]⟩
  | logoutReq (g g' id' : ℕ) (hl : Left id w none none) :
      Course id w ⟨.request (.logout g id'), [.logout g, .wd (.gateKick id g' true), .kicking id]⟩
  | logoutAns (g g' : ℕ) (ans : Ans) (hl : Left id w none none) :
      Course id w ⟨.answer ans, [.logout g, .wd (.gateKick id g' true), .kicking id]⟩
  | gateAns (g : ℕ) (ans : Ans) (hl : Left id w none none) :
      Course id w ⟨.answer ans, [.wd (.gateKick id g true), .kicking id]⟩
  | back {ans : Ans} (hl : ans.failed = false → Left id w none none) :
      Course id w ⟨.answer ans, [.kicking id]⟩

/-- `misc.blacklist` of the user. -/
def Bans (id : ℕ) : Coro → Prop :=
  Thread.Has (fun f => f.bans id = true) (fun q => q.bans id = true) fun _ => False

section Courses

variable {E : Env} {id : ℕ} {w w' : World} {t : Coro}

theorem Left.shrinks {a g : Option ℕ} (h : Left id w a g) (hs : Shrinks id w w') : Left id w' a g :=
  ⟨fun a' ha => hs.agents a' (h.agents a' ha), fun g' hg => hs.gates g' (h.gates g' hg)⟩

/-- **The others do not take the user anywhere.** -/
theorem Course.mono (h : Course id w t) (hs : Kicking id t → Shrinks id w w') : Course id w' t := by
  have kicks : ∀ {m : Message Req Ans} (fs : List Frame),
      (∀ id', m ≠ .request (.wd (.tryKick id'))) → Kicking id ⟨m, fs ++ [.kicking id]⟩ := by
    intro m fs hm
    refine ⟨⟨.kicking id, by simp, by simp [Frame.kicks]⟩, ?_⟩
    dsimp only
    split
    · exact hm _ rfl
    · trivial
  cases h with
  | ask => exact .ask
  | flag => exact .flag
  | readReq => exact .readReq
  | readAns ans => exact .readAns ans
  | writeReq hb => exact .writeReq hb
  | writeAns hb ans => exact .writeAns hb ans
  | flagged ha => exact .flagged ha
  | lookup => exact .lookup
  | @agentReq u hu hl =>
      have hs := hs (kicks [_] (by simp))
      obtain ⟨hu', ha, hg⟩ := hs.recs u hu
      rw [← ha]
      refine .agentReq hu' ?_
      rw [ha, hg]
      exact hl.shrinks hs
  | @agentAns u ans hu hl =>
      have hs := hs (kicks [_] (by simp))
      obtain ⟨hu', -, hg⟩ := hs.recs u hu
      exact .agentAns hu' fun hf => hg ▸ (hl hf).shrinks hs
  | @closeReq u a hu hl =>
      have hs := hs (kicks [_] (by simp))
      obtain ⟨hu', -, hg⟩ := hs.recs u hu
      exact .closeReq a hu' (hg ▸ hl.shrinks hs)
  | @closeAns u ans hu hl =>
      have hs := hs (kicks [_] (by simp))
      obtain ⟨hu', -, hg⟩ := hs.recs u hu
      exact .closeAns ans hu' (hg ▸ hl.shrinks hs)
  | gateReq hl => exact .gateReq (hl.shrinks (hs (kicks [_] (by simp))))
  | logoutReq g g' id' hl =>
      exact .logoutReq g g' id' (hl.shrinks (hs (kicks [_, _] (by simp))))
  | logoutAns g g' ans hl => exact .logoutAns g g' ans (hl.shrinks (hs (kicks [_, _] (by simp))))
  | gateAns g ans hl => exact .gateAns g ans (hl.shrinks (hs (kicks [_] (by simp))))
  | back hl => exact .back fun hf => (hl hf).shrinks (hs (kicks [] (by simp)))

/-- Only one thread is left behind. -/
theorem forall_threads_done {w' : World} {ans : Ans} {f : Frame} {stack : List Frame}
    {p : Coro → Prop}
    (h : p ⟨.answer ans, f :: stack⟩) : ∀ t ∈ (done w' ans).threads (f :: stack), p t := by
  simpa [done, Served.threads, Ends.thread] using h

theorem forall_threads_call {w' : World} {f : Frame} {q : Req} {stack : List Frame}
    {p : Coro → Prop}
    (h : p ⟨.request q, f :: stack⟩) : ∀ t ∈ (call w' f q).threads stack, p t := by
  simpa [call, Served.threads, Ends.thread] using h

/-- The end of `watchdog.try_kick`. -/
theorem Course.drop {u : Watchdog.Ref} (d : Watchdog.Data)
    (hl : Left id w none (some (d.recs u).gate)) :
    ∀ t ∈ (wdOut w (Watchdog.kickDrop d id u true)).threads [.kicking id],
      Course id (wdOut w (Watchdog.kickDrop d id u true)).state t :=
  forall_threads_call (.gateReq ⟨hl.agents, hl.gates⟩)

/-- **A ban takes its course.** -/
theorem Course.step (h : Course id w t) (hf : Fits w) (i : Inp)
    (hread : ∀ x, t = ⟨.answer (.ext x), [.accRead id true, .flagging id]⟩ →
      Accdb.querybyuid E.toEnv w.accounts id ≠ some none)
    (hlook : t = ⟨.request (.wd (.tryKick id)), [.kicking id]⟩ → Known id w) :
    ∀ t' ∈ ((services E).step w t i).2, Course id ((services E).step w t i).1 t' := by
  cases h with
  | ask => exact forall_threads_call .flag
  | flag => exact forall_threads_call .readReq
  | readReq => exact forall_threads_done (.readAns _)
  | readAns ans =>
      simp only [Services.step, services, resume]
      split
      · rename_i x
        split
        · unfold accRead
          split
          · exact forall_threads_done (.flagged (by simp))
          · rename_i hq
            exact absurd hq (hread x rfl)
          · exact forall_threads_call (.writeReq rfl)
        · exact forall_threads_done (.flagged (by simp))
      · exact forall_threads_done (.flagged (by simp))
  | writeReq hb => exact forall_threads_done (.writeAns hb _)
  | writeAns hb ans =>
      simp only [Services.step, services, resume]
      split
      · rename_i x
        cases x.auth.answer <;> exact forall_threads_done (.flagged (by simp))
      · exact forall_threads_done (.flagged (by simp))
  | flagged ha =>
      simp only [Services.step, services, resume]
      split
      · exact forall_threads_call .lookup
      · exact absurd rfl ha
      · simp [done, Served.threads, Ends.thread]
  | lookup =>
      have hk := hlook rfl
      simp only [Services.step, services, serve, Watchdog.direct, Watchdog.kick]
      cases hu : w.wd.users.lookup id with
      | none =>
          have he : w.wd.entry id = none := by rw [Watchdog.Data.entry, hu]; rfl
          refine forall_threads_done (.back fun _ => ⟨fun a _ => ?_, fun g _ => ?_⟩)
          · by_contra hne
            have hka := hk.agents a hne
            rw [he] at hka
            cases hka
          · by_contra hne
            have hkg := hk.gates g hne
            rw [he] at hkg
            cases hkg
      | some u =>
          have he : w.wd.entry id = some (w.wd.recs u) := by rw [Watchdog.Data.entry, hu]; rfl
          refine forall_threads_call
            (.agentReq ⟨hf.made id u hu, fun id' hid' => hf.own _ _ u hid' hu⟩
            ⟨fun a hne => ?_, fun g hne => ?_⟩)
          · by_contra hnone
            have hka := hk.agents a hnone
            rw [he] at hka
            exact hne hka
          · by_contra hnone
            have hkg := hk.gates g hnone
            rw [he] at hkg
            exact hne hkg
  | @agentReq u hu hl =>
      simp only [Services.step, services, serve]
      split
      · exact forall_threads_done (.agentAns hu fun hf => by cases hf)
      · refine forall_threads_done (.agentAns hu fun _ => ⟨fun a _ => ?_, hl.gates⟩)
        rw [state_done, agent_setAgent]
        split
        · rw [lookup_kick, if_pos ⟨rfl, rfl⟩]
        · rename_i hne
          exact hl.agents a fun he => hne (Option.some.inj he).symm
  | @agentAns u ans hu hl =>
      simp only [Services.step, services, resume, Watchdog.resume]
      cases hans : ans.failed with
      | true => exact forall_threads_done (.back fun hf => by cases hf)
      | false =>
          have hl := hl hans
          simp only [Bool.false_eq_true, if_false, Watchdog.kicked]
          split
          · rename_i d a hd
            have he := congrArg Prod.fst hd
            dsimp only at he
            subst he
            exact forall_threads_call (.closeReq _ hu ⟨hl.agents, hl.gates⟩)
          · rename_i d hd
            have he := congrArg Prod.fst hd
            dsimp only at he
            subst he
            exact Course.drop _ hl
  | @closeReq u a hu hl =>
      refine forall_threads_done (.closeAns _ hu ⟨fun a' _ => ?_, hl.gates⟩)
      change (((w.setAgent a {}).agent a').users.lookup id) = none
      rw [agent_setAgent]
      split
      · rfl
      · exact hl.agents a' (by simp)
  | @closeAns u ans hu hl =>
      simp only [Services.step, services, resume, Watchdog.resume]
      cases hans : ans.failed with
      | true => exact forall_threads_done (.back fun hf => by cases hf)
      | false =>
          simp only [Bool.false_eq_true, if_false]
          exact Course.drop _ hl
  | @gateReq g hl =>
      simp only [Services.step, services, serve, gateKick]
      cases hk : (w.gate g).kick id with
      | none =>
          refine forall_threads_done (.gateAns _ _ ⟨hl.agents, fun g' _ => ?_⟩)
          by_cases hg : g' = g
          · rw [hg]
            unfold Gate.Data.kick at hk
            split at hk
            · assumption
            · cases hk
          · exact hl.gates g' fun he => hg (Option.some.inj he).symm
      | some d =>
          obtain ⟨-, hu⟩ := (hf.gates g).kick hk
          refine forall_threads_call (.logoutReq _ _ _ ⟨hl.agents, fun g' _ => ?_⟩)
          dsimp only
          rw [state_call, gate_setGate]
          split
          · rw [hu, lookup_erase_eq, if_pos rfl]
          · rename_i hg
            exact hl.gates g' fun he => hg (Option.some.inj he).symm
  | logoutReq g g' id' hl =>
      simp only [Services.step, services, serve]
      split <;> exact forall_threads_done (.logoutAns _ _ _ ⟨hl.agents, hl.gates⟩)
  | logoutAns g g' ans hl => exact forall_threads_done (.gateAns _ _ hl)
  | gateAns g ans hl =>
      simp only [Services.step, services, resume, Watchdog.resume]
      split <;> exact forall_threads_done (.back fun _ => ⟨hl.agents, hl.gates⟩)
  | back hl =>
      simp only [Services.step, services, resume]
      split <;> simp [done, Served.threads, Ends.thread]

/-- The step that sets the flag. -/
def Flags (id : ℕ) (t : Coro) : Prop :=
  ∃ base x, t = ⟨.answer (.ext x), [.accWrite id base, .flagging id]⟩ ∧ base.forbidden = true

theorem Banning.bans (h : Banning id t) : Bans id t := by
  rcases h with ⟨f, hf, hk⟩ | h
  · refine Or.inr ⟨f, hf, ?_⟩
    cases f <;> simp [Frame.kicks] at hk
    simp [Frame.bans, hk]
  · split at h
    · rename_i id' stack _ hstack
      exact Or.inr
        ⟨.flagging id', by rw [hstack]; exact List.mem_cons_self, by simp [Frame.bans, h]⟩
    · exact h.elim

theorem Kicking.banning (h : Kicking id t) : Banning id t := Or.inl h.1

/-- **Nobody but the step that sets the flag** begins to ban. -/
theorem Course.banning (h : Course id w t) (i : Inp) {t' : Coro}
    (ht' : t' ∈ ((services E).step w t i).2) (hb : Banning id t') :
    Banning id t ∨ Flags id t ∧ Flagged E id ((services E).step w t i).1 ∧
      ∀ t' ∈ ((services E).step w t i).2, ¬ Enters id t' := by
  have kicks : ∀ {m : Message Req Ans} (fs : List Frame), Banning id ⟨m, fs ++ [.kicking id]⟩ :=
    fun fs => Or.inl ⟨.kicking id, by simp, by simp [Frame.kicks]⟩
  -- a thread that has not set the flag
  have early : (∀ t' ∈ ((services E).step w t i).2, ¬ Banning id t') →
      Banning id t ∨ Flags id t ∧ Flagged E id ((services E).step w t i).1 ∧
        ∀ t' ∈ ((services E).step w t i).2, ¬ Enters id t' :=
    fun hno => absurd hb (hno t' ht')
  cases h with
  | ask => exact early (forall_threads_call (by simp [Banning, Frame.kicks]))
  | flag => exact early (forall_threads_call (by simp [Banning, Frame.kicks]))
  | readReq => exact early (forall_threads_done (by simp [Banning, Frame.kicks]))
  | readAns ans =>
      refine early ?_
      simp only [Services.step, services, resume]
      split
      · split
        · unfold accRead
          split
          · exact forall_threads_done (by simp [Banning, Frame.kicks])
          · exact forall_threads_done (by simp [Banning, Frame.kicks])
          · exact forall_threads_call (by simp [Banning, Frame.kicks])
        · exact forall_threads_done (by simp [Banning, Frame.kicks])
      · exact forall_threads_done (by simp [Banning, Frame.kicks])
  | writeReq hforb => exact early (forall_threads_done (by simp [Banning, Frame.kicks]))
  | @writeAns base hforb ans =>
      cases ans with
      | ext x =>
          cases hx : x.auth.answer with
          | ok =>
              refine Or.inr ⟨⟨base, x, rfl, hforb⟩, ⟨base, ?_, hforb⟩, ?_⟩
              · simp only [Services.step, services, resume, hx, accWrite, state_done]
                exact (Accdb.baseOf_refreshbase _ _ _ _).2 (by rw [if_pos rfl])
              · simp only [Services.step, services, resume, hx]
                exact forall_threads_done
                  (by simp [Enters, Thread.has_answer, Frame.enters, Ans.enters])
          | failed | lost =>
              refine early ?_
              simp only [Services.step, services, resume, hx]
              exact forall_threads_done (by simp [Banning, Frame.kicks])
      | _ => exact early (forall_threads_done (by simp [Banning, Frame.kicks]))
  | @flagged ans ha =>
      cases ans with
      | bool b =>
          cases b with
          | true => exact Or.inl (Or.inr rfl)
          | false => exact absurd rfl ha
      | _ =>
          exact early (by simp [Services.step, services, resume, done, Served.threads, Ends.thread])
  | lookup => exact Or.inl (kicks [])
  | agentReq => exact Or.inl (kicks [_])
  | agentAns => exact Or.inl (kicks [_])
  | closeReq => exact Or.inl (kicks [_])
  | closeAns => exact Or.inl (kicks [_])
  | gateReq => exact Or.inl (kicks [_])
  | logoutReq => exact Or.inl (kicks [_, _])
  | logoutAns => exact Or.inl (kicks [_, _])
  | gateAns => exact Or.inl (kicks [_])
  | back => exact Or.inl (kicks [])

end Courses

/-! ### The invariant -/

/-- **The invariant.**  A ban takes its course.  From the flag on it is read by every handshake, and
no login of the user is on its way that has not read it.  Once the ban has returned the user is
nowhere, nobody signs him in, and nobody lifts the ban. -/
structure Guarded (E : Env) (id : ℕ) (s : Sys) : Prop where
  fits : Fits s.shared
  writes : ∀ t ∈ s.cos, ∀ f ∈ t.stack, f.Writes E s.shared
  course : ∀ t ∈ s.cos, Bans id t → Course id s.shared t
  flagged : (s.shared.barred id = true ∨ ∃ t ∈ s.cos, Banning id t) →
    Flagged E id s.shared ∧ ∀ t ∈ s.cos, ¬ Enters id t
  barred : s.shared.barred id = true → Left id s.shared none none ∧
    ∀ t ∈ s.cos, ¬ Signs id s.shared t ∧ ¬ Lifts id t
  signins : ∀ e ∈ s.shared.signins, e.1 = id → e.2 = false

section Steps

variable {E : Env} {id : ℕ} {w : World} {t : Coro} {s : Sys}

/-- The steps that ban a user, or let him in again. -/
def Rules (id : ℕ) : Coro → Prop
  | ⟨.request q, _⟩ => q.rules id = true
  | ⟨.answer _, f :: _⟩ => f.bans id = true
  | ⟨.answer _, []⟩ => False

/-- **What any other step does.** -/
theorem exists_keeps (hf : Fits w) (hw : ∀ f ∈ t.stack, f.Writes E w)
    (hr : ¬ Rules id t) (i : Inp) :
    ∃ o stack en si li, (services E).step w t i = (o.state, o.threads stack) ∧ stack ⊆ t.stack ∧
      (¬ Enters id t → en = false) ∧ (¬ Signs id w t → si = false) ∧ (¬ Lifts id t → li = false) ∧
      Keeps E id w en si li o := by
  obtain ⟨m, stack⟩ := t
  cases m with
  | request q =>
      refine ⟨_, stack, _, _, _, rfl, List.Subset.refl _, fun h => ?_, fun h => ?_, fun h => ?_,
        keeps_serve hf i (by simpa [Rules] using hr)⟩
      all_goals exact Bool.eq_false_iff.2 fun hq => h (Or.inl hq)
  | answer ans =>
      cases stack with
      | nil => exact ⟨done w .nil, [], false, false, false, rfl, List.Subset.refl _, fun _ => rfl,
          fun _ => rfl, fun _ => rfl, keeps_done hf fun _ _ => rfl⟩
      | cons f stack =>
          refine ⟨_, stack, _, _, _, rfl, List.subset_cons_self _ _, fun h => ?_, fun h => ?_,
            fun h => ?_,
            keeps_resume hf ans (by simpa [Rules] using hr) (hw f List.mem_cons_self)⟩
          · refine Bool.eq_false_iff.2 fun hor => ?_
            rcases Bool.or_eq_true_iff.1 hor with hfe | ha
            · exact h (Or.inr ⟨f, List.mem_cons_self, hfe⟩)
            · exact h (Or.inl ha)
          all_goals exact Bool.eq_false_iff.2 fun hfe => h (Or.inr ⟨f, List.mem_cons_self, hfe⟩)

/-- **A step that does not ban the user keeps the invariant.** -/
theorem Guarded.keeps (hI : Guarded E id s) (i : Inp) {l r : List Coro} (hcos : s.cos = l ++ t :: r)
    (hr : ¬ Rules id t)
    (hread : ∀ x, t = ⟨.answer (.ext x), [.accRead id true, .flagging id]⟩ →
      Accdb.querybyuid E.toEnv s.shared.accounts id ≠ some none)
    (hlook : t = ⟨.request (.wd (.tryKick id)), [.kicking id]⟩ → Known id s.shared)
    (hflag : Flags id t → ∀ t' ∈ s.cos, ¬ Enters id t')
    (hlifts : (∃ t' ∈ s.cos, Banning id t') → ¬ Lifts id t)
    (hsigns : (∃ t' ∈ s.cos, Kicking id t') → ¬ Signs id s.shared t) :
    Guarded E id ⟨((services E).step s.shared t i).1,
    l ++ ((services E).step s.shared t i).2 ++ r⟩ := by
  have ht : t ∈ s.cos := hcos ▸ List.mem_append_right _ List.mem_cons_self
  have hlr : ∀ t' ∈ l ++ r, t' ∈ s.cos := by
    intro t' ht'
    rw [hcos]
    exact Machine.mem_of_mem_rest ht'
  obtain ⟨o, stack, en, si, li, hstep, hsub, hen, hsi, hli, hm, hh⟩ :=
    exists_keeps hI.fits (hI.writes t ht) hr i
  have hcourse : Bans id t → ∀ t' ∈ o.threads stack, Course id o.state t' := by
    intro hb t' ht'
    have h := (hI.course t ht hb).step hI.fits i hread hlook
    rw [hstep] at h
    exact h t' ht'
  have hbans : ∀ t' ∈ o.threads stack, Bans id t' → Bans id t := by
    intro t' ht' hb
    rcases Served.has_threads ht' hb with ⟨f, hf, hfb⟩ | ho
    · exact Or.inr ⟨f, hsub hf, hfb⟩
    · exact absurd ho hh.bans
  -- what was banned before, is; or the flag is set now
  have hbanned : (o.state.barred id = true ∨ ∃ t' ∈ l ++ o.threads stack ++ r, Banning id t') →
      (s.shared.barred id = true ∨ ∃ t' ∈ s.cos, Banning id t') ∨
        Flags id t ∧ Flagged E id o.state ∧ ∀ t' ∈ o.threads stack, ¬ Enters id t' := by
    rintro (hb | ⟨t', ht', hb⟩)
    · exact Or.inl (Or.inl (hm.barred ▸ hb))
    · rcases Machine.rest_or_left ht' with ht' | ht'
      · exact Or.inl (Or.inr ⟨t', hlr t' ht', hb⟩)
      · have hmem : t' ∈ ((services E).step s.shared t i).2 := by rw [hstep]; exact ht'
        have h := (hI.course t ht (hbans t' ht' hb.bans)).banning i hmem hb
        rw [hstep] at h
        exact h.imp_left fun h => Or.inr ⟨t, ht, h⟩
  have hno : (s.shared.barred id = true ∨ ∃ t' ∈ s.cos, Banning id t') → en = false ∧
    li = false := by
    intro h
    refine ⟨hen ((hI.flagged h).2 t ht), hli ?_⟩
    rcases h with h | h
    · exact ((hI.barred h).2 t ht).2
    · exact hlifts h
  rw [hstep]
  refine ⟨hm.fits, fun t' ht' f hf => ?_, fun t' ht' hb => ?_, fun hb => ?_, fun hb => ?_,
    fun e he hid => ?_⟩
  · -- accounts are not removed
    have hold : ∀ f : Frame, f.Writes E s.shared → f.Writes E o.state := by
      intro f hf
      cases f <;> try trivial
      exact hm.bases _ hf
    rcases Machine.rest_or_left ht' with ht' | ht'
    · exact hold f (hI.writes t' (hlr t' ht') f hf)
    · rcases List.mem_append.1 ht' with ht' | ht'
      · cases hends : o.ends with
        | ret a =>
            rw [hends, Ends.thread] at ht'
            split at ht'
            · exact absurd ht' List.not_mem_nil
            · obtain rfl := List.mem_singleton.1 ht'
              exact hold f (hI.writes t ht f (hsub hf))
        | call f' q =>
            rw [hends, Ends.thread] at ht'
            obtain rfl := List.mem_singleton.1 ht'
            rcases List.mem_cons.1 hf with rfl | hf
            · exact hh.writes f q hends
            · exact hold f (hI.writes t ht f (hsub hf))
      · obtain ⟨q, -, rfl⟩ := List.mem_map.1 ht'
        exact absurd hf List.not_mem_nil
  · rcases Machine.rest_or_left ht' with ht' | ht'
    · refine (hI.course t' (hlr t' ht') hb).mono fun hk => ?_
      have hbn : ∃ t' ∈ s.cos, Banning id t' := ⟨t', hlr t' ht', hk.banning⟩
      exact hm.shrinks (hno (Or.inr hbn)).1 (hsi (hsigns ⟨t', hlr t' ht', hk⟩))
    · exact hcourse (hbans t' ht' hb) t' ht'
  · -- a handshake reads the flag
    have hnew : (∀ t' ∈ s.cos, ¬ Enters id t') → (∀ t' ∈ o.threads stack, ¬ Enters id t') →
        ∀ t' ∈ l ++ o.threads stack ++ r, ¬ Enters id t' := fun hall ho t' ht' =>
      (Machine.rest_or_left ht').elim (fun ht' => hall t' (hlr t' ht')) (ho t')
    rcases hbanned hb with hb | ⟨hf, hfl, ho⟩
    · obtain ⟨hfl, hall⟩ := hI.flagged hb
      obtain ⟨he, hl⟩ := hno hb
      refine ⟨hm.flag hl hfl, hnew hall fun t' ht' hent => ?_⟩
      rcases Served.has_threads ht' hent with ⟨f, hf, hfe⟩ | hoe
      · exact hall t ht (Or.inr ⟨f, hsub hf, hfe⟩)
      · exact hh.enters he hfl hoe
    · exact ⟨hfl, hnew (hflag hf) ho⟩
  · have hb : s.shared.barred id = true := hm.barred ▸ hb
    obtain ⟨hleft, hall⟩ := hI.barred hb
    obtain ⟨he, hl⟩ := hno (Or.inl hb)
    have hs := hsi (hall t ht).1
    have hsh := hm.shrinks he hs
    refine ⟨hleft.shrinks hsh, fun t' ht' => ?_⟩
    have hstay : ∀ f : Frame, f.signs id o.state = true → f.signs id s.shared = true := by
      intro f hf
      cases f with
      | reading g fd => exact hm.socks he hs hleft g fd hf
      | _ => exact hf
    rcases Machine.rest_or_left ht' with ht' | ht'
    · refine ⟨fun hsg => (hall t' (hlr t' ht')).1 ?_, (hall t' (hlr t' ht')).2⟩
      refine hsg.imp_right ?_
      rintro ⟨f, hf, hfs⟩
      exact ⟨f, hf, hstay f hfs⟩
    · refine ⟨fun hsg => ?_, fun hlf => ?_⟩
      · rcases Served.has_threads ht' hsg with ⟨f, hf, hfs⟩ | hos
        · exact (hall t ht).1 (Or.inr ⟨f, hsub hf, hstay f hfs⟩)
        · exact hh.signs he hs hleft hos
      · rcases Served.has_threads ht' hlf with ⟨f, hf, hfl⟩ | hol
        · exact (hall t ht).2 (Or.inr ⟨f, hsub hf, hfl⟩)
        · exact hh.lifts hl hol
  · rcases hm.signins e he with he | ⟨hbar, hne⟩
    · exact hI.signins e he hid
    · cases hb : s.shared.barred id with
      | false => rw [hbar, hid, hb]
      | true =>
          obtain ⟨hleft, hall⟩ := hI.barred hb
          exact absurd hid (hne (hno (Or.inl hb)).1 (hsi (hall t ht).1) hleft)

theorem bans_start {q : Req} : Bans id (Thread.start q) ↔ q.bans id = true := Thread.has_start

theorem enters_start {q : Req} : Enters id (Thread.start q) ↔ q.enters id = true := Thread.has_start

theorem signs_start {q : Req} : Signs id w (Thread.start q) ↔ q.signs id = true := Thread.has_start

theorem lifts_start {q : Req} : Lifts id (Thread.start q) ↔ q.lifts id = true := Thread.has_start

/-- Threads come and go that have nothing to do with the tables. -/
theorem Guarded.replace (hI : Guarded E id s) {l o n r : List Coro} (hcos : s.cos = l ++ o ++ r)
    (hw : ∀ t ∈ n, ∀ f ∈ t.stack, f.Writes E s.shared)
    (hc : ∀ t ∈ n, Bans id t → Course id s.shared t)
    (hb : ∀ t ∈ n, Banning id t → ∃ t ∈ s.cos, Banning id t)
    (he : ∀ t ∈ n, Enters id t → ∃ t ∈ s.cos, Enters id t)
    (hq : s.shared.barred id = true → ∀ t ∈ n, ¬ Signs id s.shared t ∧ ¬ Lifts id t) :
    Guarded E id ⟨s.shared, l ++ n ++ r⟩ := by
  have mem : ∀ {t}, t ∈ l ++ n ++ r → t ∈ s.cos ∨ t ∈ n := by
    intro t ht
    rw [hcos]
    refine (Machine.rest_or_left ht).imp_left fun ht => ?_
    rcases List.mem_append.1 ht with ht | ht
    · exact List.mem_append_left _ (List.mem_append_left _ ht)
    · exact List.mem_append_right _ ht
  have hbanned : (s.shared.barred id = true ∨ ∃ t ∈ l ++ n ++ r, Banning id t) →
      s.shared.barred id = true ∨ ∃ t ∈ s.cos, Banning id t := by
    rintro (h | ⟨t, ht, h⟩)
    · exact Or.inl h
    · exact Or.inr ((mem ht).elim (fun ht => ⟨t, ht, h⟩) fun ht => hb t ht h)
  refine ⟨hI.fits, fun t ht => (mem ht).elim (hI.writes t) (hw t),
    fun t ht => (mem ht).elim (hI.course t) (hc t), fun h => ⟨(hI.flagged (hbanned h)).1, ?_⟩,
    fun h => ⟨(hI.barred h).1, ?_⟩, hI.signins⟩
  · intro t ht hent
    obtain ⟨t', ht', hent'⟩ := (mem ht).elim (fun ht => ⟨t, ht, hent⟩) fun ht => he t ht hent
    exact (hI.flagged (hbanned h)).2 t' ht' hent'
  · exact fun t ht => (mem ht).elim ((hI.barred h).2 t) (hq h t)

/-- The user is banned, or let in again. -/
theorem Guarded.bar (hI : Guarded E id s) (b : Bool)
    (hb : b = true → (∃ t ∈ s.cos, Banning id t) ∧ Left id s.shared none none ∧
      ∀ t ∈ s.cos, ¬ Signs id s.shared t ∧ ¬ Lifts id t) :
    Guarded E id ⟨s.shared.bar id b, s.cos⟩ := by
  have hbar : ((s.shared.bar id b).barred id = true) → b = true := by
    simp [World.bar]
  have hsh : Shrinks id s.shared (s.shared.bar id b) :=
    ⟨fun _ h => h, fun _ h => h, fun _ hu => ⟨hu, rfl, rfl⟩⟩
  refine ⟨⟨hI.fits.gates, hI.fits.made, hI.fits.own, hI.fits.stored, hI.fits.counted⟩, ?_,
    fun t ht h => (hI.course t ht h).mono fun _ => hsh, fun h => ?_, fun h => ?_, hI.signins⟩
  · intro t ht f hf
    have hw := hI.writes t ht f hf
    cases f <;> exact hw
  · exact hI.flagged (Or.inr (h.elim (fun h => (hb (hbar h)).1) fun h => h))
  · obtain ⟨-, hl, hall⟩ := hb (hbar h)
    refine ⟨hl.shrinks hsh, fun t ht => ⟨fun hs => (hall t ht).1 ?_, (hall t ht).2⟩⟩
    refine hs.imp_right fun ⟨f, hf, hfs⟩ => ⟨f, hf, ?_⟩
    cases f <;> exact hfs

/-- **Every step that meets the condition keeps the invariant.** -/
theorem Guarded.step {s' : Sys} {e : Ev} (hI : Guarded E id s) (hC : Apart E id s e)
    (he : (services E).machine.exec s e = some s') : Guarded E id s' := by
  rcases Services.exec_cases he with ⟨r, i, rfl, rfl⟩ | ⟨k, i, l, t, r, rfl, hk, hcos, rfl⟩
  · -- a message of the world
    have h := hI.replace (l := s.cos) (o := []) (n := [Thread.start r.req]) (r := [])
      (by simp) (by simp [Thread.start]) ?_ ?_ ?_ ?_
    · rw [List.append_nil] at h
      exact h
    all_goals
      simp only [List.mem_singleton, forall_eq]
    · rw [bans_start]
      intro hq
      cases r <;> simp [Ask.req, Req.bans] at hq
      subst hq
      exact .ask
    · intro hb
      simp [Banning, Thread.start] at hb
    · rw [enters_start]
      intro hq
      cases r <;> simp [Ask.req, Req.enters] at hq
    · rw [signs_start, lifts_start]
      intro _
      cases r <;> simp [Ask.req, Req.signs, Req.lifts]
  · have ht : t ∈ s.cos := hcos ▸ List.mem_append_right _ List.mem_cons_self
    have hcos' : s.cos = l ++ [t] ++ r := by simpa using hcos
    have hstep := hC.step
    rw [StepApart, hk] at hstep
    by_cases hr : Rules id t
    · obtain ⟨m, stack⟩ := t
      cases m with
      | request q =>
          cases q with
          | blacklist id' =>
              obtain rfl : id' = id := by simpa [Rules, Req.rules] using hr
              have hc := hI.course _ ht (Or.inl (by simp [Message.Is, Req.bans]))
              cases hc
              refine hI.replace hcos' ?_ ?_ ?_ ?_ ?_
              · exact forall_threads_call (by simp [Frame.Writes])
              · exact forall_threads_call fun _ => .flag
              · exact forall_threads_call (by simp [Banning, Frame.kicks])
              · exact forall_threads_call
                  (by simp [Enters, Thread.has_request, Frame.enters, Req.enters])
              · exact fun _ => forall_threads_call (by
                  simp [Signs, Lifts, Thread.has_request, Frame.signs, Req.signs,
                    Frame.lifts, Req.lifts])
          | whitelist id' =>
              obtain rfl : id' = id := by simpa [Rules, Req.rules] using hr
              have hnb : ¬ Bans id' ⟨.request (.whitelist id'), stack⟩ := fun hb => by
                cases hI.course _ ht hb
              refine (hI.bar false (by simp)).replace hcos' ?_ ?_ ?_ ?_ ?_
              · refine forall_threads_call fun f hf => ?_
                rcases List.mem_cons.1 hf with rfl | hf
                · trivial
                · have hw := hI.writes _ ht f hf
                  cases f <;> exact hw
              · refine forall_threads_call fun hb => absurd ?_ hnb
                rcases Thread.has_request.1 hb with hb | ⟨f, hf, hb⟩
                · simp [Req.bans] at hb
                · rcases List.mem_cons.1 hf with rfl | hf
                  · simp [Frame.bans] at hb
                  · exact Or.inr ⟨f, hf, hb⟩
              · refine forall_threads_call fun hb => absurd ?_ hnb
                rcases hb with ⟨f, hf, hb⟩ | hb
                · rcases List.mem_cons.1 hf with rfl | hf
                  · simp [Frame.kicks] at hb
                  · exact (show Banning id' ⟨_, stack⟩ from Or.inl ⟨f, hf, hb⟩).bans
                · simp at hb
              · refine forall_threads_call fun hent => ⟨_, ht, ?_⟩
                rcases Thread.has_request.1 hent with hent | ⟨f, hf, hent⟩
                · simp [Req.enters] at hent
                · rcases List.mem_cons.1 hf with rfl | hf
                  · simp [Frame.enters] at hent
                  · exact Or.inr ⟨f, hf, hent⟩
              · intro hb
                simp [World.bar] at hb
          | _ => exact absurd hr (by simp [Rules, Req.rules])
      | answer ans =>
          cases stack with
          | nil => exact absurd hr (by simp [Rules])
          | cons f stack =>
              cases hI.course _ ht (Or.inr ⟨f, List.mem_cons_self, hr⟩) with
              | flagged ha =>
                  have hend : Guarded E id ⟨s.shared, l ++ [] ++ r⟩ := by
                    refine hI.replace hcos' ?_ ?_ ?_ ?_ ?_ <;> simp
                  simp only [services, Services.step, resume]
                  split
                  · refine hI.replace hcos' ?_ ?_ ?_ ?_ ?_
                    · exact forall_threads_call (by simp [Frame.Writes])
                    · exact forall_threads_call fun _ => .lookup
                    · exact forall_threads_call fun _ => ⟨_, ht, Or.inr rfl⟩
                    · exact forall_threads_call (by
                        simp [Enters, Thread.has_request, Frame.enters, Req.enters])
                    · exact fun _ => forall_threads_call (by
                        simp [Signs, Lifts, Thread.has_request, Frame.signs, Req.signs, Frame.lifts,
                          Req.lifts])
                  · exact absurd rfl ha
                  · exact hend
              | back hl =>
                  have hend : Guarded E id ⟨s.shared, l ++ [] ++ r⟩ := by
                    refine hI.replace hcos' ?_ ?_ ?_ ?_ ?_ <;> simp
                  have hk : Kicking id ⟨.answer ans, [.kicking id]⟩ :=
                    ⟨⟨_, List.mem_cons_self, hr⟩, trivial⟩
                  simp only [services, Services.step, resume]
                  cases hans : ans.failed with
                  | true => exact hend
                  | false =>
                      have hbar := hI.bar true fun _ => ⟨⟨_, ht, hk.banning⟩, hl hans, fun t' ht' =>
                        ⟨hC.signs ⟨_, ht, hk⟩ t' ht', hC.lifts ⟨_, ht, hk.banning⟩ t' ht'⟩⟩
                      have hend : Guarded E id ⟨s.shared.bar id true, l ++ [] ++ r⟩ := by
                        refine hbar.replace hcos' ?_ ?_ ?_ ?_ ?_ <;> simp
                      exact hend
              | _ => exact absurd hr (by simp [Rules, Frame.bans])
    · refine hI.keeps i hcos hr ?_ ?_ ?_ (fun h => hC.lifts h t ht) fun h => hC.signs h t ht
      · rintro x rfl
        exact hstep rfl
      · rintro rfl
        exact (hstep rfl).1
      · rintro ⟨base, x, rfl, hb⟩
        exact hstep rfl hb

/-! ### Every run -/

theorem guarded_start (l : Login.Server) (load : ℤ) : Guarded E id (start l load) where
  fits :=
    { gates := fun _ => filed_empty
      made := fun _ _ h => by cases h
      own := fun _ _ _ h => by cases h
      stored := ⟨[], Accdb.stored_empty⟩
      counted := Accdb.counted_empty }
  writes := List.forall_mem_nil _
  course := List.forall_mem_nil _
  flagged h := by
    rcases h with h | ⟨t, ht, -⟩
    · cases h
    · exact absurd ht List.not_mem_nil
  barred h := by cases h
  signins := List.forall_mem_nil _

theorem guarded_of_apart {l : Login.Server} {load : ℤ}
    (h : (services E).machine.Reach (Apart E id) (start l load) s) : Guarded E id s :=
  Machine.Reach.inv (guarded_start l load) (fun _ _ _ hI hC he => hI.step hC he) h

/-- **A ban is effective**: in every run that meets the condition, once `misc.blacklist` has
returned and until `misc.whitelist` is called, the user does not sign in and has no session. -/
theorem effective_of_apart {l : Login.Server} {load : ℤ}
    (h : (services E).machine.Reach (Apart E id) (start l load) s) : Effective id s.shared :=
  ⟨(guarded_of_apart h).signins, fun hb a =>
    ((guarded_of_apart h).barred hb).1.agents a (by simp)⟩

end Steps

/-! ### The witness and the counterexample -/

/-- The script that registers, when the counter is `n`. -/
theorem register3rd_eq {E : Accdb.Env} {r : Redis.Store} {third : Accdb.Third} {base : Accdb.Base}
    {uinfo : Accdb.Uinfo} {rounds n : ℕ}
    (h : (r.setnx "account:id:counter" (1000000 : ℕ).repr).strings "account:id:counter" =
    some n.repr) :
    Accdb.register3rd E r third base uinfo rounds =
      (Redis.Buckets.put
      (((r.setnx "account:id:counter" (1000000 : ℕ).repr).set "account:id:counter"
          (n + 1).repr).sadd ("nick:" ++ uinfo.uname) (n + 1).repr)
        (Accdb.bucket third.ident) Accdb.maxsize third.uid (n + 1).repr rounds 1).map fun r =>
          (Accdb.saveAccount E r third base uinfo (n + 1), n + 1) := by
  simp [Accdb.register3rd, Redis.Store.incr, h]

def records : Env where
  toEnv := { Auth.strings with username := fun _ => "u" }
  secret := fun _ => 0

/-- A guest who has not been here before. -/
def guest : Auth.Signing := ⟨true, ⟨"guest", "c", "c"⟩, none⟩

/-- His account. -/
def account : Redis.Store :=
  let r := (Accdb.uniqueUsername records.toEnv {}).1.setnx "account:id:counter" (1000000 : ℕ).repr
  ((Redis.Buckets.put ((r.set "account:id:counter" (1000001 : ℕ).repr).sadd ("nick:" ++ "u")
      (1000001 : ℕ).repr) (Accdb.bucket guest.third.ident) Accdb.maxsize "c"
      (1000001 : ℕ).repr 1 1).map
    fun r => Accdb.saveAccount records.toEnv r guest.third ⟨"u", false⟩
    ⟨"u", 0, "null"⟩ 1000001).getD {}

/-- His handshake, about to register him. -/
def registering : Coro :=
  ⟨.answer (.ext { auth := { rounds := 1 } }),
    [.auth (.register guest ⟨"u", false⟩ ⟨"u", 0, "null"⟩), .handshake "fish" "ios"]⟩

/-- His handshake, past it. -/
def stating : Coro :=
  ⟨.request .external,
    [.auth (.stat guest 1000001 ⟨"u", false⟩ (some ⟨"u", 0, "null"⟩)), .handshake "fish" "ios"]⟩

def opened (r : Redis.Store) :
    World := { login := Login.oneGate, wd := { load := 1 }, accounts := r }

/-- The first steps of his login. -/
theorem reach_registering : (services records).machine.Reach (Apart records 1000001)
    (start Login.oneGate 1) ⟨opened (Accdb.uniqueUsername records.toEnv {}).1, [registering]⟩ := by
  have h : (services records).machine.run (Apart records 1000001) (start Login.oneGate 1)
      [.call (.login "fish" "ios" none (.guest "c")) {}, .resume 0 {}, .resume 0 {},
        .resume 0 { auth := { rounds := 1 } }, .resume 0 {}, .resume 0 {}, .resume 0 {},
        .resume 0 { auth := { rounds := 1 } }] =
      some ⟨opened (Accdb.uniqueUsername records.toEnv {}).1, [registering]⟩ := rfl
  exact Machine.reach_of_run .init h

/-- The script registers him. -/
theorem exec_registering : (services records).machine.exec
    ⟨opened (Accdb.uniqueUsername records.toEnv {}).1, [registering]⟩ (.resume 0 {}) =
      some ⟨opened account, [stating]⟩ := by
  have h : Auth.segment records.toEnv ⟨(Accdb.uniqueUsername records.toEnv {}).1, []⟩
    { rounds := 1 }
      (.register guest ⟨"u", false⟩ ⟨"u", 0, "null"⟩) =
      some (⟨account, [.created guest.third.ident 1000001]⟩,
        [.stat guest 1000001 ⟨"u", false⟩ (some ⟨"u", 0, "null"⟩)]) := by
    rw [Auth.segment]
    dsimp only
    rw [register3rd_eq (n := 1000000) rfl]
    rfl
  rw [Services.exec_resume (t := registering) rfl]
  simp only [Services.step, services, resume, registering, opened, h]
  rfl

/-- `misc.blacklist` reads the base of his account while he is on his way. -/
theorem reach_banning :
    (services records).machine.Reach (Apart records 1000001) (start Login.oneGate 1)
    ⟨opened account, [stating,
      ⟨.request .external, [.accWrite 1000001 ⟨"u", true⟩, .flagging 1000001]⟩]⟩ := by
  have h₁ := reach_registering.step (by decide +kernel) exec_registering
  have h₂ : (services records).machine.run (Apart records 1000001) ⟨opened account, [stating]⟩
      [.call (.blacklist 1000001) {}, .resume 1 {}, .resume 1 {}, .resume 1 {}] =
      some ⟨opened account,
        [stating, ⟨.answer (.ext {}), [.accRead 1000001 true, .flagging 1000001]⟩]⟩ := rfl
  have hq : Accdb.querybyuid records.toEnv account 1000001 = some (some ⟨"u", false⟩) := by
    have hb : account.hget (Accdb.baseKey 1000001) (1000001 : ℕ).repr =
        some (records.base.enc ⟨"u", false⟩) := rfl
    rw [Accdb.querybyuid, hb]
    simp [records.base.dec_enc]
  refine (Machine.reach_of_run h₁ h₂).step (e := .resume 1 {})
    ⟨?_, by decide +kernel, by decide +kernel⟩ ?_
  · intro _
    change Accdb.querybyuid records.toEnv account 1000001 ≠ some none
    rw [hq]
    simp
  · rw [Services.exec_resume
      (t := ⟨.answer (.ext {}), [.accRead 1000001 true, .flagging 1000001]⟩) rfl]
    simp only [Services.step, services, resume, accRead, opened, hq]
    rfl

/-- The rest of a login. -/
def goesOn (k n : ℕ) : List Ev := List.replicate n (.resume k {})

/-- A sign-in. -/
def signsIn (k : ℕ) : List Ev :=
  [.call (.connect 7) {}, .resume k {}, .resume k { read := .signin 1000001 0 }, .resume k {}] ++
    goesOn (k + 1) 3

/-- A user who has signed in is banned. -/
theorem effective_guest : ∃ s, ((services records).machine.Reach (Apart records 1000001)
    (start Login.oneGate 1) s ∧ (s.shared.barred 1000001 = true ∧ s.shared.signins.length = 1)) ∧
      Effective 1000001 s.shared := by
  have hrun : ((services records).machine.run (Apart records 1000001)
      ⟨opened account, [stating,
        ⟨.request .external, [.accWrite 1000001 ⟨"u", true⟩, .flagging 1000001]⟩]⟩
      (goesOn 0 7 ++ signsIn 1 ++ [.resume 1 { read := .other }] ++ goesOn 1 10 ++ goesOn 0 11)).any
        (fun s => decide (s.shared.barred 1000001 = true ∧ s.shared.signins.length = 1)) =
        true := by
    decide +kernel
  obtain ⟨s, hs, hp⟩ := (Option.any_eq_true _ _).1 hrun
  have hr := Machine.reach_of_run reach_banning hs
  exact ⟨s, ⟨hr, of_decide_eq_true hp⟩, effective_of_apart hr⟩

/-- **A login that has passed its handshake signs in after the ban.** -/
theorem signin_after_ban : ¬ ∀ (E : Env) (id : ℕ) (l : Login.Server) (load : ℤ) (s : Sys),
    (services E).machine.Reach (fun _ _ => True) (start l load) s → Effective id s.shared := by
  intro hall
  have hrun : ((services records).machine.run (fun _ _ => True)
      ⟨opened account, [stating,
        ⟨.request .external, [.accWrite 1000001 ⟨"u", true⟩, .flagging 1000001]⟩]⟩
      (goesOn 1 5 ++ goesOn 0 7 ++ signsIn 0)).any
        (fun s => decide ((1000001, true) ∈ s.shared.signins)) = true := by
    decide +kernel
  obtain ⟨s, hs, hp⟩ := (Option.any_eq_true _ _).1 hrun
  have hr := Machine.reach_of_run (reach_banning.mono fun _ _ _ => trivial) hs
  have h := (hall records 1000001 Login.oneGate 1 s hr).signins _ (of_decide_eq_true hp) rfl
  cases h

end Halieutics.Misc
