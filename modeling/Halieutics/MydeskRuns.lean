/-
**The operations, and runs.**

Every operation keeps the records in agreement: the requests of a desk by the lemmas of
`Halieutics.MydeskSteps`, `cli:create`, `cli:join` and `cli:leave` directly.

Main results:

* `Halieutics.Mydesk.Sound.create`, `Halieutics.Mydesk.Sound.join`, `Halieutics.Mydesk.Sound.leave`
  — **the handlers of the agent**;
* `Halieutics.Mydesk.Sound.next` — **one operation**;
* `Halieutics.Mydesk.sound_of_run` — **the records agree** after every run.
-/

import Halieutics.MydeskSteps

set_option relaxedAutoImplicit false
set_option autoImplicit false

namespace Halieutics.Mydesk

open LuaTable

/-! ### The requests of a desk -/

section Requests

variable {w w' : World} {me id uid : ℕ} {inp : Inp} {inps : List Inp} {r : Ret}

/-- A desk service answers at once when the desk is not registered. -/
theorem direct_of_not_live {d : Desk} (hl : d.live = false) (inp : Inp) {q : Req}
    (hq : staying q = true) :
    ∃ r, direct d inp q = .ret d r := by
  cases q with
  | sitdown uid withseat =>
      refine ⟨.raise "assertion failed!", ?_⟩
      rw [direct, sitdown, hl]
      rfl
  | standup uid =>
      refine ⟨.raise "[desk.standup] no desk.", ?_⟩
      rw [direct, standup, hl]
      rfl
  | afk uid =>
      refine ⟨.nil, ?_⟩
      rw [direct, afk, hl]
      rfl
  | sceneinfo uid =>
      refine ⟨.err .deskNoexists, ?_⟩
      rw [direct, sceneinfo, hl]
      rfl
  | _ => cases hq

/-- **The requests that take nobody to a desk or away from it.** -/
theorem Sound.request (h : Sound w me) {q : Req} (hq : staying q = true)
    (hf : request w id q inp inps = some (w', r)) : Sound w' me := by
  cases hl : (w.desks id).live with
  | false =>
      obtain ⟨r', hout⟩ := direct_of_not_live hl inp hq
      rw [Mydesk.request, hout, finish_ret, setDesk_desks] at hf
      exact (Prod.mk.inj (Option.some_inj.1 hf)).1 ▸ h
  | true =>
      obtain ⟨hrest, hseat⟩ := h.rest hl
      have hc : Calm w me id := ⟨hrest, h.stored, h.home⟩
      have hs : InOrder (direct (w.desks id) inp q) :=
        seated_job (w.desks id) inp (j := .req q) hseat
      refine Good.finish ?_ hf
      cases q with
      | sitdown uid withseat => exact good_sitdown hc (.refl _) hs
      | standup uid =>
          exact good_standup hc (.refl _) hseat (fun v hv => by cases hv) (fun _ => rfl) hs
      | afk uid => exact good_afk hc (.refl _) hs
      | sceneinfo uid => exact good_sceneinfo hc (.refl _) hs
      | _ => cases hq

/-- **`cli:dismiss_apply`.** -/
theorem Sound.dismissApply (h : Sound w me) (hf : clientDismissApply w id uid inps = some (w', r)) :
    Sound w' me := by
  unfold clientDismissApply at hf
  cases hu : admits (w.desks id) uid with
  | none =>
      rw [hu] at hf
      exact (Prod.mk.inj (Option.some_inj.1 hf)).1 ▸ h
  | some u =>
      rw [hu] at hf
      unfold admits at hu
      split at hu
      · rename_i hl
        obtain ⟨hrest, hseat⟩ := h.rest hl
        have hs : InOrder (Halieutics.dismissApply (w.desks id) u) :=
          seated_job (w.desks id) {} (j := .cmd u .dismissApply) hseat
        have hid := (hrest.manned.ids uid u hu).1
        exact Good.finish (good_dismissApply ⟨hrest, h.stored, h.home⟩ (.refl _) hseat
          (by rw [hid]; exact hu) hs) hf
      · cases hu

/-- A game ends, and its desk is freed. -/
theorem Sound.freeDesk (h : Sound w me) (hl : (w.desks id).live = true) {r' : Ret}
    (hf : finish w id (freeDesk (w.desks id) r') inps = some (w', r)) : Sound w' me := by
  obtain ⟨hrest, -⟩ := h.rest hl
  exact Good.finish (good_freeLoop ⟨hrest, h.stored, h.home⟩ (kept_mark _ .freeDesk) r') hf

theorem Plays.kept {d d' : Desk} (h : Plays d d') : Kept d d' :=
  ⟨h.creater, h.live, h.seats.usermap, h.seats.nobj, h.seats.id, fun u hu => (h.source u).trans hu⟩

/-- The game goes on. -/
theorem Sound.plays (h : Sound w me) {d : Desk} (hp : Plays (w.desks id) d) :
    Sound (w.setDesk id d) me := by
  refine ⟨h.ground.setDesk hp.creater hp.live, fun id' => ?_, h.stored, h.home.kept hp.kept⟩
  by_cases hid : id' = id
  · rw [hid, setDesk_self]
    intro hl
    obtain ⟨hm, hseat⟩ := h.staffed id (hp.live.symm.trans hl)
    exact ⟨hm.kept hp.kept, hseat.same hp.seats⟩
  · rw [setDesk_ne w d hid]
    exact h.staffed id'

/-- The lobby changes, but not its desks. -/
theorem Sound.lobby (h : Sound w me) {l : Lobby.Data} (hn : Numbered l)
    (hlook : ∀ id, l.deskmap.lookup id = w.lobby.deskmap.lookup id) :
    Sound { w with lobby := l } me := by
  have howns : ∀ id, Owns { w with lobby := l } me id ↔ Owns w me id := fun id => by
    rw [Owns, Owns, hlook]
  refine ⟨⟨hn, fun id => ?_, fun id e he => ?_, fun id => ?_, h.ground.once⟩, h.staffed,
    fun s => ?_,
    ⟨h.home.stored, h.home.there⟩⟩
  · rw [hlook]
    exact h.ground.live id
  · rw [hlook] at he
    exact h.ground.creater id e he
  · rw [howns]
    exact h.ground.created id
  · refine (h.stored s).trans (exists_congr fun id => ?_)
    rw [howns]

end Requests

/-! ### The time of a desk is up -/

/-- What `free_desk` will answer. -/
def Pc.answer : Pc → Option Ret
  | .backRecord p _ | .backAdd p _ | .backQuery p _ | .backPush p _ | .backSave p =>
      match p.k with
      | .free r => some r
      | .standup _ _ => none
  | .freeAgent _ r | .kickRemove _ (.free r) | .kickLeave _ (.free r) | .freeDismiss r |
    .freeGamedb r
  | .freeLobby r => some r
  | _ => none

/-- The handler has answered `r` or raised, or is on the way to it. -/
def Answers (r : Ret) (o : Out) : Prop :=
  match o.res with
  | .ret r' => r' = r ∨ ∃ msg, r' = .raise msg
  | .wait pc => Pc.answer pc = some r

section Answer

variable {d : Desk} {r : Ret}

theorem answers_freeLoop (d : Desk) (r : Ret) : Answers r (freeLoop d r) := by
  unfold freeLoop
  split
  · rfl
  · split <;> rfl

theorem answers_walkOn {p : Walk} (hp : p.k = .free r) : Answers r (walkOn d p) := by
  obtain ⟨p', pc, hwalk, hk, -, -, hpc⟩ := walk_cases d p ((d.tabs p.tab).drop p.i)
  rw [walkOn, hwalk]
  rcases hpc with ⟨c, rfl⟩ | rfl <;> simp only [Answers, Out.wait, Pc.answer, hk, hp]

/-- One segment. -/
theorem answers_seg {pc : Pc} (inp : Inp) (h : Pc.answer pc = some r) :
    Answers r (Job.out d inp (.seg pc)) := by
  have walk : ∀ p : Walk, (match p.k with | .free r => some r | .standup _ _ => none) = some r →
      p.k = .free r := by
    intro p hp
    cases hk : p.k with
    | standup u k =>
        rw [hk] at hp
        cases hp
    | free r' =>
        rw [hk] at hp
        rw [Option.some_inj.1 hp]
  cases pc with
  | backRecord p c | backAdd p c => exact h
  | backQuery p c =>
      rw [Job.out, segment]
      split
      · exact h
      · exact answers_walkOn (walk p h)
  | backPush p c =>
      rw [Job.out, segment]
      split
      · exact Or.inr ⟨_, rfl⟩
      · exact answers_walkOn (walk p h)
  | backSave p =>
      rw [Job.out, segment, walk p h]
      exact answers_freeLoop _ r
  | freeAgent u r' => exact h
  | kickRemove uid k =>
      cases k with
      | free r' => exact h
      | leave k => cases h
  | kickLeave uid k =>
      cases k with
      | free r' =>
          obtain rfl := Option.some_inj.1 h
          exact answers_freeLoop _ r'
      | leave k => cases h
  | freeDismiss r' | freeGamedb r' => exact h
  | freeLobby r' => exact Or.inl (Option.some_inj.1 h)
  | _ => cases h

theorem answers_finish {w w' : World} {id : ℕ} {o : Out} {r' : Ret} {inps : List Inp}
    (h : Answers r o)
    (hf : finish w id o inps = some (w', r')) : r' = r ∨ ∃ msg, r' = .raise msg := by
  induction inps generalizing w o with
  | nil =>
      unfold finish at hf
      cases hres : o.res with
      | wait pc =>
          rw [hres] at hf
          cases hf
      | ret r'' =>
          rw [Answers, hres] at h
          rw [hres] at hf
          rw [← (Prod.mk.inj (Option.some_inj.1 hf)).2]
          exact h
  | cons inp inps ih =>
      unfold finish at hf
      cases hres : o.res with
      | wait pc =>
          rw [Answers, hres] at h
          rw [hres] at hf
          exact ih (answers_seg inp h) hf
      | ret r'' =>
          rw [Answers, hres] at h
          rw [hres] at hf
          rw [← (Prod.mk.inj (Option.some_inj.1 hf)).2]
          exact h

/-- **`desk.force_dismiss`** does not answer 3 when the desk is registered. -/
theorem forceDismiss_answer {w w' : World} {id : ℕ} {r' : Ret} {inps : List Inp}
    (hl : d.live = true)
    (hf : finish w id (forceDismiss d) inps = some (w', r')) : r' ≠ .code 3 := by
  have ret : ∀ d r'', finish w id (.ret d r'') inps = some (w', r') → r' = r'' := by
    intro d r'' hf
    rw [finish_ret] at hf
    exact (Prod.mk.inj (Option.some_inj.1 hf)).2.symm
  unfold forceDismiss at hf
  rw [if_neg (by rw [hl]; decide)] at hf
  dsimp only at hf
  split at hf
  · rw [ret _ _ hf]
    simp
  · split at hf
    · rw [ret _ _ hf]
      simp
    · unfold backRoomcard at hf
      have hanswer : r' = .code 1 ∨ ∃ msg, r' = .raise msg := by
        split at hf
        · exact answers_finish (answers_freeLoop _ _) hf
        · exact answers_finish (answers_walkOn rfl) hf
      rcases hanswer with rfl | ⟨msg, rfl⟩
      · simp
      · simp

end Answer

/-- **The lobby's timer** dismisses a desk. -/
theorem Sound.monitorWork {w w' : World} {me id : ℕ} {inp : Inp} {inps : List Inp} (h : Sound w me)
    (hq : (w.query id).isSome = true) (hf : deskMonitorWork w id inp inps = some w') :
    Sound w' me := by
  have hl : (w.desks id).live = true := by
    rw [h.ground.live id]
    rw [World.query, Option.isSome_map] at hq
    exact hq
  obtain ⟨hrest, hseat⟩ := h.rest hl
  have hs : InOrder (forceDismiss (w.desks id)) :=
    seated_job (w.desks id) inp (j := .req .forceDismiss) hseat
  obtain ⟨⟨v, r⟩, hv, he⟩ := Option.map_eq_some_iff.1 hf
  have hsound := Good.finish (good_forceDismiss ⟨hrest, h.stored, h.home⟩ (.refl _) hseat hs) hv
  have hanswer := forceDismiss_answer hl hv
  dsimp only at he
  rw [if_neg hanswer] at he
  exact he ▸ hsound

/-! ### `cli:join` -/

section Join

variable {w w' : World} {me id uid : ℕ} {inp : Inp} {inps : List Inp} {d : Desk}

/-- **What `desk.join` can do**, on behalf of a user. -/
theorem join_outcome (d : Desk) (uid : ℕ) (inp : Inp) :
    (∃ r, r ≠ .nil ∧ join d uid false inp = .ret d r) ∨
    ∃ user : User, user.id = uid ∧ user.source = true ∧
      join d uid false inp = .wait (joinin d user) (.joinAdd d.nobj) := by
  unfold join
  split
  · exact Or.inl ⟨_, by simp, rfl⟩
  · split
    · exact Or.inl ⟨_, by simp, rfl⟩
    · split
      · exact Or.inl ⟨_, by simp, rfl⟩
      · split
        · exact Or.inl ⟨_, by simp, rfl⟩
        · exact Or.inr ⟨_, rfl, rfl, rfl⟩

/-- A new user is known by his number. -/
theorem Manned.joinin (h : Manned d) {user : User} (hs : user.source = true) :
    Manned (joinin d user) := by
  have hlook : ∀ {uid u}, (Halieutics.joinin d user).usermap.lookup uid = some u →
      (uid = user.id ∧ u = d.nobj) ∨ d.usermap.lookup uid = some u := by
    intro uid u hu
    have hu : (d.usermap.insert user.id d.nobj).lookup uid = some u := hu
    rw [lookup_insert_eq] at hu
    split at hu
    · rename_i hid
      exact Or.inl ⟨hid, (Option.some_inj.1 hu).symm⟩
    · exact Or.inr hu
  have hnew : (Halieutics.joinin d user).objs d.nobj = user := Function.update_self _ _ _
  have hold : ∀ u, u < d.nobj → (Halieutics.joinin d user).objs u = d.objs u :=
    fun u hu => Function.update_of_ne (Nat.ne_of_lt hu) _ _
  refine ⟨fun uid u hu => ?_, fun uid u hu => ?_⟩
  · rcases hlook hu with ⟨rfl, rfl⟩ | hu
    · exact ⟨by rw [hnew], Nat.lt_succ_self _⟩
    · obtain ⟨hid, hlt⟩ := h.ids uid u hu
      exact ⟨by rw [hold u hlt, hid], Nat.lt_succ_of_lt hlt⟩
  · rcases hlook hu with ⟨rfl, rfl⟩ | hu
    · rw [hnew, hs]
    · rw [hold u (h.ids uid u hu).2]
      exact h.source uid u hu

/-- A handler that waits goes on with the next input. -/
theorem finish_wait {pc : Pc} {x : World × Ret} (hf : finish w id (.wait d pc) inps = some x) :
    ∃ inp inps', finish (serve (w.setDesk id d) id d inp pc) id (Job.out d inp (.seg pc)) inps' =
    some x := by
  cases inps with
  | nil => cases hf
  | cons inp inps => exact ⟨inp, inps, hf⟩

/-- **`desk.join`, carried on to its end.** -/
theorem finish_join {user : User} {r : Ret}
    (hf : finish w id (.wait (joinin d user) (.joinAdd d.nobj)) inps = some (w', r)) :
    r = .nil ∧ ∃ inp₁ inp₂, ∃ d₁ d₂,
    d₁ = (Job.out (joinin d user) inp₁ (.seg (.joinAdd d.nobj))).d ∧
      d₂ = (Job.out d₁ inp₂ (.seg (.joinDb d.nobj))).d ∧ Kept (joinin d user) d₂ ∧
      w' = World.setDesk { w with dbs := Userdb.join w.dbs user.id id } id d₂ := by
  obtain ⟨inp₁, inps, hf⟩ := finish_wait hf
  obtain ⟨inp₂, inps, hf⟩ := finish_wait hf
  set d₁ := (executed (joinin d user) inp₁ (.joinAdd d.nobj)).setUser d.nobj fun x =>
    { x with push := true }
    with hd₁
  have hkept : Kept (joinin d user) d₁ :=
    (kept_executed _ inp₁ _).trans (kept_setUser _ d.nobj (fun _ => rfl) fun _ h => h)
  have hid : (d₁.objs d.nobj).id = user.id := by
    rw [hkept.id]
    exact congrArg User.id (Function.update_self _ _ _)
  have hout : Job.out d₁ inp₂ (.seg (.joinDb d.nobj)) =
    .ret (executed d₁ inp₂ (.joinDb d.nobj)) .nil := rfl
  have hserve : serve ((w.setDesk id (joinin d user)).setDesk id d₁) id d₁ inp₂ (.joinDb d.nobj) =
      (World.setDesk { w with dbs := Userdb.join w.dbs (d₁.objs d.nobj).id id } id
      (joinin d user)).setDesk
        id d₁ := rfl
  change finish (serve ((w.setDesk id (joinin d user)).setDesk id d₁) id d₁ inp₂ (.joinDb d.nobj))
    id
    (Job.out d₁ inp₂ (.seg (.joinDb d.nobj))) inps = _ at hf
  rw [hserve, hout, finish_ret, setDesk_setDesk, setDesk_setDesk, hid] at hf
  obtain ⟨rfl, rfl⟩ := Prod.mk.inj (Option.some_inj.1 hf)
  exact ⟨rfl, inp₁, inp₂, d₁, _, rfl, rfl, hkept.trans (kept_executed d₁ inp₂ (.joinDb d.nobj)),
    rfl⟩

/-- **A user is at a desk.** -/
theorem Sound.joined {e : Lobby.Desk} {r : Ret} (h : Sound w me) {m : MyDesk}
    (hm : w.users uid = some m)
    (he : w.lobby.deskmap.lookup id = some e)
    (hf : Mydesk.request w id (.join uid false) inp inps = some (w', r)) :
    (r ≠ .nil ∧ w' = w) ∨
    (r = .nil ∧ Sound (w'.setMydesk uid fun m => { m with active := some ⟨id, e⟩ }) me) := by
  have hlive : (w.desks id).live = true := (h.ground.live id).2 (by rw [he]; rfl)
  obtain ⟨hrest, hseat⟩ := h.rest hlive
  rcases join_outcome (w.desks id) uid inp with ⟨r', hr', hout⟩ | ⟨user, huser, hsource, hout⟩
  · rw [Mydesk.request, direct, hout, finish_ret, setDesk_desks] at hf
    obtain ⟨rfl, rfl⟩ := Prod.mk.inj (Option.some_inj.1 hf)
    exact Or.inl ⟨hr', rfl⟩
  · have hin := seated_job (w.desks id) inp (j := .req (.join uid false)) hseat
    rw [Job.out, direct, hout] at hin
    rw [Mydesk.request, direct, hout] at hf
    obtain ⟨rfl, inp₁, inp₂, d₁, d₂, hd₁, hd₂, hkept, rfl⟩ := finish_join hf
    have hseat₀ : Seated (joinin (w.desks id) user) [.joinAdd (w.desks id).nobj] :=
      hin (List.forall_mem_singleton.2 rfl)
    have hseat₁ : Seated d₁ [.joinDb (w.desks id).nobj] :=
      hd₁ ▸ seated_job _ inp₁ (j := .seg (.joinAdd _)) hseat₀ (List.forall_mem_singleton.2 rfl)
    have hseat₂ : Seated d₂ [] :=
      hd₂ ▸ seated_job d₁ inp₂ (j := .seg (.joinDb _)) hseat₁ (List.forall_mem_nil _)
    have hmanned : Manned d₂ := (hrest.manned.joinin hsource).kept hkept
    have hmem : ∀ uid', uid' ∈ d₂.usermap ↔ uid' = uid ∨ uid' ∈ (w.desks id).usermap := by
      intro uid'
      rw [hkept.usermap, ← huser]
      exact AList.mem_insert _
    set w₁ : World := { w with dbs := Userdb.join w.dbs user.id id } with hw₁
    have hground : Ground w₁ me := h.ground.congr rfl rfl rfl
    have hground' : Ground (w₁.setDesk id d₂) me := hground.setDesk hkept.creater hkept.live
    refine Or.inr ⟨rfl, hground'.congr rfl rfl (ids_setMydesk _ _ _ fun _ => rfl),
      fun id' => ?_, ?_, ?_⟩
    · change Staffed ((w₁.setDesk id d₂).desks id')
      by_cases hid : id' = id
      · rw [hid, setDesk_self]
        exact fun _ => ⟨hmanned, hseat₂⟩
      · rw [setDesk_ne _ _ hid]
        exact h.staffed id'
    · refine h.stored.congr rfl fun s => ?_
      change s ∈ Userdb.created (Userdb.join w.dbs user.id id) me ↔ _
      rw [Userdb.created_join]
    · by_cases hme : me = uid
      · have hactive :
          (((w₁.setDesk id d₂).setMydesk uid fun m => { m with active := some ⟨id, e⟩ }).mydesk
            me).active = some ⟨id, e⟩ := by
          rw [hme, mydesk_setMydesk_some (w := w₁.setDesk id d₂) hm]
        refine ⟨?_, fun r hr => ?_⟩
        · rw [hactive]
          change Userdb.getActiveDesk (Userdb.join w.dbs user.id id) me = _
          rw [Userdb.getActiveDesk_join, huser, if_pos hme]
          rfl
        · rw [hactive] at hr
          obtain rfl := Option.some_inj.1 hr
          change ((w₁.setDesk id d₂).desks id).live = true ∧
            me ∈ ((w₁.setDesk id d₂).desks id).usermap ∧
            e.creater = ((w₁.setDesk id d₂).desks id).creater
          rw [setDesk_self]
          refine ⟨hkept.live.trans hlive, (hmem me).2 (Or.inl hme), ?_⟩
          rw [hkept.creater]
          exact (h.ground.creater id e he).symm
      · have hhome : Home w₁ me := h.home.congr rfl rfl (by
          rw [hw₁, Userdb.getActiveDesk_join, huser, if_neg hme])
        have hhome' : Home (w₁.setDesk id d₂) me :=
          hhome.setDesk hkept.creater hkept.live fun hin => (hmem me).2 (Or.inr hin)
        exact hhome'.congr (mydesk_setMydesk_ne _ _ hme) rfl rfl

/-- **`cli:join`.** -/
theorem Sound.join (h : Sound w me) (hf : cliJoin w uid id inp inps = some w') : Sound w' me := by
  unfold cliJoin at hf
  cases hm : w.users uid with
  | none =>
      rw [hm] at hf
      exact Option.some_inj.1 hf ▸ h
  | some m =>
      rw [hm] at hf
      dsimp only at hf
      split at hf
      · exact Option.some_inj.1 hf ▸ h
      · cases hq : w.query id with
        | none =>
            rw [hq] at hf
            exact Option.some_inj.1 hf ▸ h
        | some room =>
            rw [hq] at hf
            obtain ⟨e, he, rfl⟩ := Option.map_eq_some_iff.1 hq
            obtain ⟨⟨v, r⟩, hv, hw⟩ := Option.map_eq_some_iff.1 hf
            dsimp only at hw
            rcases h.joined hm he hv with ⟨hr, rfl⟩ | ⟨hr, hjoined⟩
            · rw [if_neg hr] at hw
              exact hw ▸ h
            · rw [if_pos hr] at hw
              exact hw ▸ hjoined

end Join

/-! ### `cli:leave` -/

section Leave

variable {w w' : World} {me id uid : ℕ} {inp : Inp} {inps : List Inp} {d : Desk} {r : Ret}

/-- **`kick_user` at the end of `desk.leave`.** -/
theorem finish_kick {u : Ref} (hid : (d.objs u).id = uid)
    (hf : finish w id (kickUser d u (.leave .ret)) inps = some (w', r)) :
    r = .nil ∧ ∃ inp₁ inp₂, ∃ d₁ d₂,
      d₁ = (Job.out (drop d u) inp₁ (.seg (.kickRemove uid (.leave .ret)))).d ∧
      d₂ = (Job.out d₁ inp₂ (.seg (.kickLeave uid (.leave .ret)))).d ∧ Kept (drop d u) d₂ ∧
      w' = (left w uid).setDesk id d₂ := by
  rw [kickUser, hid] at hf
  obtain ⟨inp₁, inps, hf⟩ := finish_wait hf
  obtain ⟨inp₂, inps, hf⟩ := finish_wait hf
  set d₁ := executed (drop d u) inp₁ (.kickRemove uid (.leave .ret)) with hd₁
  have hout : Job.out d₁ inp₂ (.seg (.kickLeave uid (.leave .ret))) =
      .ret (executed d₁ inp₂ (.kickLeave uid (.leave .ret))) .nil := rfl
  have hserve : serve ((w.setDesk id (drop d u)).setDesk id d₁) id d₁ inp₂
    (.kickLeave uid (.leave .ret)) =
      ((left w uid).setDesk id (drop d u)).setDesk id d₁ := rfl
  change finish
    (serve ((w.setDesk id (drop d u)).setDesk id d₁) id d₁ inp₂ (.kickLeave uid (.leave .ret))) id
    (Job.out d₁ inp₂ (.seg (.kickLeave uid (.leave .ret)))) inps = _ at hf
  rw [hserve, hout, finish_ret, setDesk_setDesk, setDesk_setDesk] at hf
  obtain ⟨rfl, rfl⟩ := Prod.mk.inj (Option.some_inj.1 hf)
  have hkept := (kept_executed (drop d u) inp₁ (.kickRemove uid (.leave .ret))).trans
    (kept_executed d₁ inp₂ (.kickLeave uid (.leave .ret)))
  exact ⟨rfl, inp₁, inp₂, d₁, _, rfl, rfl, hkept, rfl⟩

/-- **A user has left a desk.** -/
theorem Sound.departed (h : Sound w me)
    (hf : Mydesk.request w id (.leave uid) inp inps = some (w', r)) :
    (r ≠ .nil ∧ w' = w) ∨
    (r = .nil ∧ Sound (w'.setMydesk uid fun m => { m with active := none }) me) := by
  have refused : ∀ r', r' ≠ .nil → leave (w.desks id) uid .ret = .ret (w.desks id) r' → r ≠ .nil ∧
    w' = w := by
    intro r' hr' hout
    rw [Mydesk.request, direct, hout, finish_ret, setDesk_desks] at hf
    obtain ⟨rfl, rfl⟩ := Prod.mk.inj (Option.some_inj.1 hf)
    exact ⟨hr', rfl⟩
  rcases leave_cases (w.desks id) uid .ret with
    ⟨-, msg, hout⟩ | ⟨u, -, -, hout⟩ | ⟨u, e, hlive, hu, hke, hobjs, hout⟩
  · exact Or.inl (refused _ (by simp) hout)
  · exact Or.inl (refused _ (by simp) hout)
  · obtain ⟨hrest, hseat⟩ := h.rest hlive
    have hid : (e.objs u).id = uid := by rw [hobjs, (hrest.manned.ids uid u hu).1]
    have hin := seated_job (w.desks id) inp (j := .req (.leave uid)) hseat
    rw [Job.out, direct, hout] at hin
    rw [Mydesk.request, direct, hout] at hf
    obtain ⟨rfl, inp₁, inp₂, d₁, d₂, hd₁, hd₂, hkept, rfl⟩ := finish_kick hid hf
    have hseat₀ : Seated (drop e u) [.kickRemove uid (.leave .ret)] := by
      have hkick := hin (List.forall_mem_singleton.2 rfl)
      rw [kickUser, hid] at hkick
      exact hkick
    have hseat₁ : Seated d₁ [.kickLeave uid (.leave .ret)] :=
      hd₁ ▸ seated_job _ inp₁ (j := .seg (.kickRemove uid _)) hseat₀
        (List.forall_mem_singleton.2 rfl)
    have hseat₂ : Seated d₂ [] :=
      hd₂ ▸ seated_job d₁ inp₂ (j := .seg (.kickLeave uid _)) hseat₁ (List.forall_mem_nil _)
    have hmanned : Manned d₂ := ((hrest.manned.kept hke).drop u).kept hkept
    have hcreater : d₂.creater = (w.desks id).creater := hkept.creater.trans hke.creater
    have hlive' : d₂.live = (w.desks id).live := hkept.live.trans hke.live
    have hground : Ground (left w uid) me := h.ground.congr rfl rfl rfl
    have hground' : Ground ((left w uid).setDesk id d₂) me := hground.setDesk hcreater hlive'
    refine Or.inr ⟨rfl, hground'.congr rfl rfl (ids_setMydesk _ _ _ fun _ => rfl),
      fun id' => ?_, ?_, ?_⟩
    · change Staffed (((left w uid).setDesk id d₂).desks id')
      by_cases hid' : id' = id
      · rw [hid', setDesk_self]
        exact fun _ => ⟨hmanned, hseat₂⟩
      · rw [setDesk_ne _ _ hid']
        exact h.staffed id'
    · exact (h.stored.left uid).congr rfl fun _ => Iff.rfl
    · by_cases hme : me = uid
      · subst hme
        exact home_of_none (by rw [mydesk_setMydesk_self _ _ rfl]) (getActiveDesk_left w me)
      · have hhome : Home (left w uid) me := h.home.left (Ne.symm hme)
        have hhome' : Home ((left w uid).setDesk id d₂) me := by
          refine hhome.setDesk hcreater hlive' fun hin => ?_
          rw [hkept.usermap]
          refine AList.mem_erase.2 ⟨?_, hke.usermap ▸ hin⟩
          rw [hid]
          exact hme
        exact hhome'.congr (mydesk_setMydesk_ne _ _ hme) rfl rfl

/-- **`cli:leave`.** -/
theorem Sound.leave (h : Sound w me) (hf : cliLeave w uid inp inps = some w') : Sound w' me := by
  unfold cliLeave at hf
  cases hm : w.users uid with
  | none =>
      rw [hm] at hf
      exact Option.some_inj.1 hf ▸ h
  | some m =>
      rw [hm] at hf
      dsimp only at hf
      cases hactive : m.active with
      | none =>
          rw [hactive] at hf
          exact Option.some_inj.1 hf ▸ h
      | some room =>
          rw [hactive] at hf
          obtain ⟨⟨v, r⟩, hv, hw⟩ := Option.map_eq_some_iff.1 hf
          dsimp only at hw
          rcases h.departed hv with ⟨hr, rfl⟩ | ⟨hr, hdeparted⟩
          · rw [if_neg hr] at hw
            exact hw ▸ h
          · rw [if_pos hr] at hw
            exact hw ▸ hdeparted

end Leave

/-! ### `cli:create` -/

section Create

variable {w w' : World} {me id uid : ℕ}

/-- A number leaves the buffer. -/
theorem Numbered.draw {l l' : Lobby.Data} (h : Numbered l) (hb : l.buffer.Perm (id :: l'.buffer))
    (hl : ∀ id', id' ≠ id → l'.deskmap.lookup id' = l.deskmap.lookup id') : Numbered l' := by
  have hnodup := List.nodup_cons.1 (hb.nodup_iff.1 h.nodup)
  refine ⟨hnodup.2, fun id' hid => ?_⟩
  rw [hl id' (fun heq => hnodup.1 (heq ▸ hid))]
  exact h.free id' (hb.mem_iff.2 (List.mem_cons_of_mem id hid))

/-- **What `lobby.assign` can answer.** -/
theorem assign_cases {d : Lobby.Data} (h : Numbered d) (uid : ℕ) (info : Lobby.Info)
    (inp : Lobby.Inp) :
    ∃ l, Numbered l ∧
      ((∃ r, (∀ id e, r ≠ .desk id e) ∧ l.deskmap = d.deskmap ∧
        answered {} (Lobby.assign d uid info inp) = .ret l r) ∨
      ∃ id e, id ∈ d.buffer ∧ e.creater = uid ∧ l.deskmap = d.deskmap.insert id e ∧
        answered {} (Lobby.assign d uid info inp) = .ret l (.desk id e)) := by
  unfold Lobby.assign
  split
  · exact ⟨d, h, Or.inl ⟨_, by simp, rfl, rfl⟩⟩
  · split
    · exact ⟨d, h, Or.inl ⟨_, by simp, rfl, rfl⟩⟩
    · rename_i id buffer hdraw
      have hperm := Lobby.randomId_perm hdraw
      have hmem : id ∈ d.buffer := hperm.mem_iff.2 List.mem_cons_self
      have hinsert : ∀ e id',
        id' ≠ id → (d.deskmap.insert id e).lookup id' = d.deskmap.lookup id' :=
        fun e id' hne => AList.lookup_insert_ne hne
      dsimp only
      split
      · exact ⟨{ d with buffer := buffer }, h.draw hperm fun _ _ => rfl,
          Or.inl ⟨.nil, nofun, rfl, rfl⟩⟩
      · split
        · exact ⟨_, h.draw hperm (hinsert _), Or.inr ⟨id, _, hmem, rfl, rfl, rfl⟩⟩
        · exact ⟨_, h.draw hperm (hinsert _), Or.inr ⟨id, _, hmem, rfl, rfl, rfl⟩⟩

theorem manned_create {creater timelimit : ℕ} {pay : Pay} :
    Manned (Desk.create id creater pay timelimit) :=
  ⟨fun uid u hu => by simp [Desk.create] at hu, fun uid u hu => by simp [Desk.create] at hu⟩

theorem seated_create {creater timelimit : ℕ} {pay : Pay} :
    Seated (Desk.create id creater pay timelimit) [] := by
  have hfull : SeatFull (Desk.create id creater pay timelimit) [] :=
    SeatFull.same (l := [.monitor]) (.refl _) rfl seatFull_created
  refine
    ⟨⟨List.Perm.refl _, fun u hu => absurd hu List.not_mem_nil, List.nodup_nil, fun uid u hu => ?_⟩,
    hfull⟩
  simp [Desk.create] at hu

/-- **A desk has been created.** -/
theorem Sound.created {l : Lobby.Data} {e : Lobby.Desk} (h : Sound w me) {m : MyDesk}
    (hm : w.users uid = some m)
    (hn : Numbered l) (hnew : w.lobby.deskmap.lookup id = none)
    (hmap : l.deskmap = w.lobby.deskmap.insert id e) (hcreater : e.creater = uid) :
    Sound (World.setMydesk
      { deskCreate { w with lobby := l } ⟨id, e⟩ with dbs := Userdb.createDesk w.dbs uid id } uid
      fun m => { m with create := m.create ++ [⟨id, e⟩] }) me := by
  have he : l.deskmap.lookup id = some e := by rw [hmap, AList.lookup_insert]
  have hmonitor : Lobby.monitorDesk l id =
    .ret (({ l with monitor := l.monitor.insert id l.ntimer }.enter id
      { e with monitored := true }).addTimer (.monitor id)) .nil := by
    unfold Lobby.monitorDesk
    rw [he]
  set v := World.setMydesk
      { deskCreate { w with lobby := l } ⟨id, e⟩ with dbs := Userdb.createDesk w.dbs uid id } uid
      (fun m => { m with create := m.create ++ [⟨id, e⟩] }) with hv
  have hlobby : v.lobby = (Lobby.monitorDesk l id).d := rfl
  have hbuffer : v.lobby.buffer = l.buffer := by
    rw [hlobby, hmonitor]
    rfl
  have hlook : ∀ id', v.lobby.deskmap.lookup id' =
      if id' = id then some { e with monitored := true } else w.lobby.deskmap.lookup id' := by
    intro id'
    rw [hlobby, hmonitor]
    change (l.deskmap.insert id { e with monitored := true }).lookup id' = _
    rw [lookup_insert_eq, hmap, lookup_insert_eq]
    split <;> rfl
  have hself : v.desks id = Desk.create id uid ⟨e.pay.AA, e.pay.total⟩ e.info.timelimit := by
    rw [← hcreater]
    exact Function.update_self _ _ _
  have hother : ∀ id', id' ≠ id → v.desks id' = w.desks id' :=
    fun id' hne => Function.update_of_ne hne _ _
  have howns : ∀ id', Owns v me id' ↔ (id' = id ∧ me = uid) ∨ Owns w me id' := by
    intro id'
    rw [Owns, Owns, hlook]
    by_cases hid : id' = id
    · rw [if_pos hid, hid, hnew]
      simp only [Option.some.injEq, true_and, exists_eq_left', hcreater, false_and,
        exists_false, or_false,
        reduceCtorEq]
      exact eq_comm
    · rw [if_neg hid]
      simp [hid]
  have hmine : me = uid → v.mydesk me = { m with create := m.create ++ [⟨id, e⟩] } ∧
    w.mydesk me = m := by
    rintro rfl
    exact ⟨mydesk_setMydesk_some hm _, by rw [World.mydesk, hm]; rfl⟩
  have hothers : me ≠ uid → v.mydesk me = w.mydesk me := fun hme => mydesk_setMydesk_ne _ _ hme
  have hactive : (v.mydesk me).active = (w.mydesk me).active := by
    by_cases hme : me = uid
    · obtain ⟨hnew, hold⟩ := hmine hme
      rw [hnew, hold]
    · rw [hothers hme]
  have hids : (v.mydesk me).ids = (w.mydesk me).ids ++ if me = uid then [id] else [] := by
    by_cases hme : me = uid
    · obtain ⟨hnew, hold⟩ := hmine hme
      rw [hnew, hold, if_pos hme, MyDesk.ids, List.map_append]
      rfl
    · rw [hothers hme, if_neg hme, List.append_nil]
  have hdead : (w.desks id).live = false := by
    by_contra hlive
    have hsome := (h.ground.live id).1 (by simpa using hlive)
    rw [hnew] at hsome
    cases hsome
  have hfree : id ∉ (w.mydesk me).ids := by
    rw [h.ground.created, Owns, hnew]
    rintro ⟨e', he', -⟩
    cases he'
  refine ⟨⟨⟨?_, fun id' hid => ?_⟩, fun id' => ?_, fun id' e' he' => ?_, fun id' => ?_, ?_⟩,
    fun id' => ?_,
    fun s => ?_, ?_, fun r hr => ?_⟩
  · rw [hbuffer]
    exact hn.nodup
  · rw [hbuffer] at hid
    have hnone := hn.free id' hid
    have hne : id' ≠ id := fun heq => by
      rw [heq, he] at hnone
      cases hnone
    rw [hmap, AList.lookup_insert_ne hne] at hnone
    rw [hlook, if_neg hne]
    exact hnone
  · rw [hlook]
    by_cases hid : id' = id
    · rw [hid, hself, if_pos rfl]
      exact ⟨fun _ => rfl, fun _ => rfl⟩
    · rw [hother id' hid, if_neg hid]
      exact h.ground.live id'
  · rw [hlook] at he'
    by_cases hid : id' = id
    · rw [if_pos hid] at he'
      rw [hid, hself, ← Option.some_inj.1 he']
      exact hcreater.symm
    · rw [if_neg hid] at he'
      rw [hother id' hid]
      exact h.ground.creater id' e' he'
  · rw [hids, List.mem_append, howns, h.ground.created, or_comm]
    by_cases hme : me = uid <;> simp [hme]
  · rw [hids]
    by_cases hme : me = uid
    · rw [if_pos hme, List.nodup_append]
      refine ⟨h.ground.once, List.nodup_singleton id, fun a ha b hb => ?_⟩
      rw [List.mem_singleton.1 hb]
      rintro rfl
      exact hfree ha
    · rw [if_neg hme, List.append_nil]
      exact h.ground.once
  · by_cases hid : id' = id
    · rw [hid, hself]
      exact fun _ => ⟨manned_create, seated_create⟩
    · rw [hother id' hid]
      exact h.staffed id'
  · change s ∈ Userdb.created (Userdb.createDesk w.dbs uid id) me ↔ _
    rw [Userdb.mem_created_createDesk, h.stored s]
    constructor
    · rintro (⟨id', hne, hrepr, hown⟩ | ⟨hme, hrepr⟩)
      · exact ⟨id', hne, hrepr, (howns id').2 (Or.inr hown)⟩
      · exact ⟨id, Option.some_ne_none id, hrepr, (howns id).2 (Or.inl ⟨rfl, hme⟩)⟩
    · rintro ⟨id', hne, hrepr, hown⟩
      rcases (howns id').1 hown with ⟨rfl, hme⟩ | hown
      · exact Or.inr ⟨hme, hrepr⟩
      · exact Or.inl ⟨id', hne, hrepr, hown⟩
  · rw [hactive, ← h.home.stored]
    exact Userdb.getActiveDesk_createDesk _ _ _ _
  · rw [hactive] at hr
    have hthere := h.home.there r hr
    have hid : r.id ≠ id := by
      rintro rfl
      rw [hdead] at hthere
      cases hthere.1
    rw [hother _ hid]
    exact hthere

/-- **`cli:create`.** -/
theorem Sound.create (h : Sound w me) (info : Lobby.Info) (inp : Lobby.Inp) (left : ℤ) :
    Sound (cliCreate w uid info inp left) me := by
  unfold cliCreate
  cases hm : w.users uid with
  | none => exact h
  | some m =>
      dsimp only
      split
      · exact h
      · split
        · exact h
        · obtain ⟨l, hn, ⟨r, hr, hmap, hout⟩ | ⟨id, e, hid, hcreater, hmap, hout⟩⟩ :=
            assign_cases h.ground.numbered uid info inp
          · rw [hout]
            have hsame : Sound { w with lobby := l } me := h.lobby hn fun id => by rw [hmap]
            cases r with
            | desk id e => exact absurd rfl (hr id e)
            | nil => exact hsame
            | raise msg => exact hsame
          · rw [hout]
            have hnew := h.ground.numbered.free id hid
            have hdead : (w.desks id).live = false := by
              by_contra hlive
              have hsome := (h.ground.live id).1 (by simpa using hlive)
              rw [hnew] at hsome
              cases hsome
            dsimp only
            by_cases hleft : 0 ≤ if 0 < e.pay.total then left else e.pay.total
            · rw [if_pos hleft, if_neg (by rw [hdead]; decide)]
              exact h.created hm hn hnew hmap hcreater
            · -- the number goes back to the lobby
              have he : l.deskmap.lookup id = some e := by rw [hmap, AList.lookup_insert]
              obtain ⟨l', hn', hmap', hfree⟩ := lobbyFree_spec (w := { w with lobby := l }) hn he
              have hgone : removeMydesk { w with lobby := l } id = { w with lobby := l } := by
                rw [removeMydesk, if_neg (by rw [hdead]; decide)]
              rw [if_neg hleft, hfree, hgone]
              refine h.lobby hn' fun id' => ?_
              rw [hmap', lookup_erase_eq]
              split
              · rename_i hid'
                rw [hid', hnew]
              · rename_i hid'
                rw [hmap, AList.lookup_insert_ne hid']

end Create

/-! ### Sessions -/

/-- A user has this session. -/
def World.session (w : World) (uid : ℕ) (m : MyDesk) : World :=
  { w with users := Function.update w.users uid (some m) }

section Sessions

variable {w w' : World} {me uid : ℕ} {m : MyDesk}

theorem mydesk_session (w : World) (uid : ℕ) (m : MyDesk) : (w.session uid m).mydesk uid = m := by
  change (Function.update w.users uid (some m) uid).getD {} = m
  rw [Function.update_self]
  rfl

theorem session_setMydesk (w : World) (uid : ℕ) (m : MyDesk) (f : MyDesk → MyDesk) :
    (w.session uid m).setMydesk uid f = w.session uid (f m) := by
  unfold World.session World.setMydesk
  dsimp only
  rw [Function.update_self, Function.update_idem, Option.map_some]

/-- **The second loop of `restore_mydesk_from_db`**, when the lobby knows all desks. -/
theorem restoreCreate_session (acd : Option ℕ) {ids : List ℕ}
    (hall : ∀ id ∈ ids, (w.query id).isSome = true) :
    restoreCreate uid acd (w.session uid m) ids = w.session uid
      { m with create := m.create ++ (ids.filter fun id => some id ≠ acd).filterMap w.query } := by
  induction ids generalizing m with
  | nil => rw [restoreCreate, List.filter_nil, List.filterMap_nil, List.append_nil]
  | cons id ids ih =>
      have htail : ∀ id' ∈ ids, (w.query id').isSome = true :=
        fun id' hid => hall id' (List.mem_cons_of_mem id hid)
      rw [restoreCreate]
      by_cases hacd : some id = acd
      · rw [if_pos hacd, ih htail, List.filter_cons_of_neg (by simp [hacd])]
      · obtain ⟨room, hroom⟩ := Option.isSome_iff_exists.1 (hall id List.mem_cons_self)
        have hquery : (w.session uid m).query id = some room := hroom
        rw [if_neg hacd, hquery]
        dsimp only
        rw [session_setMydesk, ih htail, List.filter_cons_of_pos (by simpa using hacd),
          List.filterMap_cons_some hroom, List.append_assoc]
        rfl

/-- The numbers of the rooms that are found. -/
theorem mem_rooms {ids : List ℕ} (hall : ∀ id ∈ ids, (w.query id).isSome = true) (id : ℕ) :
    id ∈ (ids.filterMap w.query).map Room.id ↔ id ∈ ids := by
  have hid : ∀ {id room}, w.query id = some room → room.id = id := by
    intro id room hroom
    obtain ⟨e, -, rfl⟩ := Option.map_eq_some_iff.1 hroom
    rfl
  rw [List.mem_map]
  constructor
  · rintro ⟨room, hroom, rfl⟩
    obtain ⟨id', hmem, hquery⟩ := List.mem_filterMap.1 hroom
    rw [hid hquery]
    exact hmem
  · intro hmem
    obtain ⟨room, hroom⟩ := Option.isSome_iff_exists.1 (hall id hmem)
    exact ⟨room, List.mem_filterMap.2 ⟨id, hmem, hroom⟩, hid hroom⟩

/-- The user store knows the desks the user has created. -/
theorem Sound.mem_getCreateDesk (h : Sound w me) (id : ℕ) :
    id ∈ Userdb.getCreateDesk w.dbs me ↔ Owns w me id := by
  rw [Userdb.mem_getCreateDesk, h.stored]
  · constructor
    · rintro ⟨id', -, hrepr, hown⟩
      rw [Nat.repr_injective hrepr]
      exact hown
    · exact fun hown => ⟨id, nofun, rfl, hown⟩
  · intro s hs
    obtain ⟨id', -, hrepr, -⟩ := (h.stored s).1 hs
    exact ⟨id', hrepr⟩

/-- **What `restore_mydesk_from_db` builds**, when the records agree. -/
theorem Sound.restoreMydesk (h : Sound w me) : ∃ m, restoreMydesk w me = w.session me m ∧
    m.active.map Room.id = (w.mydesk me).active.map Room.id ∧
    ∀ id, id ∈ m.ids ↔ (∃ r, (w.mydesk me).active = some r ∧ r.id = id) ∨ Owns w me id := by
  have hall : ∀ id ∈ Userdb.getCreateDesk w.dbs me, (w.query id).isSome = true := by
    intro id hid
    obtain ⟨e, he, -⟩ := (h.mem_getCreateDesk id).1 hid
    rw [World.query, he]
    rfl
  have hall' : ∀ p : ℕ → Bool, ∀ id ∈ (Userdb.getCreateDesk w.dbs me).filter p,
    (w.query id).isSome = true :=
    fun p id hid => hall id (List.mem_of_mem_filter hid)
  have hactive := h.home.stored
  unfold Mydesk.restoreMydesk
  rw [Userdb.getMydesk, hactive]
  dsimp only
  cases hact : (w.mydesk me).active with
  | none =>
      rw [Option.map_none, Option.bind_none]
      refine ⟨_, restoreCreate_session none hall, rfl, fun id => ?_⟩
      rw [MyDesk.ids, List.nil_append, mem_rooms (hall' _), List.mem_filter, h.mem_getCreateDesk]
      simp
  | some r =>
      obtain ⟨hlive, -, -⟩ := h.home.there r hact
      obtain ⟨e, he⟩ := Option.isSome_iff_exists.1 ((h.ground.live r.id).1 hlive)
      have hroom : w.query r.id = some ⟨r.id, e⟩ := by rw [World.query, he]; rfl
      rw [Option.map_some, Option.bind_some, hroom]
      refine ⟨_, restoreCreate_session (some r.id) hall, rfl, fun id => ?_⟩
      rw [MyDesk.ids, List.map_append, List.mem_append, mem_rooms (hall' _), List.mem_filter,
        h.mem_getCreateDesk]
      by_cases hid : id = r.id
      · simp [hid]
      · simp [hid, Ne.symm hid]

/-- What happens to the session and the records of another user. -/
theorem Sound.others (h : Sound w me) (hl : w'.lobby = w.lobby) (hd : w'.desks = w.desks)
    (hm : w'.mydesk me = w.mydesk me)
    (hc : ∀ s, s ∈ Userdb.created w'.dbs me ↔ s ∈ Userdb.created w.dbs me)
    (ha : Userdb.getActiveDesk w'.dbs me = Userdb.getActiveDesk w.dbs me) : Sound w' me :=
  ⟨h.ground.congr hl hd (by rw [hm]), fun id => by rw [hd]; exact h.staffed id,
    h.stored.congr hl hc,
    h.home.congr hm hd ha⟩

/-- The session of another user. -/
theorem Sound.session (h : Sound w me) (hne : uid ≠ me) (m : MyDesk) :
    Sound (w.session uid m) me := by
  refine h.others rfl rfl ?_ (fun _ => Iff.rfl) rfl
  change (Function.update w.users uid (some m) me).getD {} = _
  rw [Function.update_of_ne hne.symm]
  rfl

/-- The session of another user is built anew. -/
theorem Sound.restoreCreate (h : Sound w me) (hne : uid ≠ me) (acd : Option ℕ) (ids : List ℕ) :
    Sound (restoreCreate uid acd w ids) me := by
  induction ids generalizing w with
  | nil => exact h
  | cons id ids ih =>
      rw [Mydesk.restoreCreate]
      split
      · exact ih h
      · split
        · exact ih (h.others rfl rfl (mydesk_setMydesk_ne w _ hne.symm) (fun _ => Iff.rfl) rfl)
        · refine ih (h.others rfl rfl rfl (fun s => ?_) (Userdb.getActiveDesk_dismiss _ _ _ _))
          rw [Userdb.mem_created_dismiss]
          simp [hne.symm]

/-- **`agent.assign`.** -/
theorem Sound.assign (h : Sound w me) (uid : ℕ) : Sound (agentAssign w uid) me := by
  unfold agentAssign
  cases hm : w.users uid with
  | some m => exact h
  | none =>
      by_cases hme : uid = me
      · -- a user without a session has no desks
        subst hme
        have hempty : w.mydesk uid = {} := by rw [World.mydesk, hm]; rfl
        obtain ⟨m, hrestore, hactive, hids⟩ := h.restoreMydesk
        have hm' : m = {} := by
          rw [hempty] at hactive hids
          have hids' : m.ids = [] := List.eq_nil_iff_forall_not_mem.2 fun id hid => by
            rcases (hids id).1 hid with ⟨r, hr, -⟩ | hown
            · cases hr
            · have hmem := (h.ground.created id).2 hown
              rw [hempty] at hmem
              cases hmem
          cases m with
          | mk active create =>
              have hactive' : active = none := Option.map_eq_none_iff.1 hactive
              have hcreate : create = [] := List.map_eq_nil_iff.1 hids'
              rw [hactive', hcreate]
        dsimp only
        rw [hrestore, hm']
        refine h.others rfl rfl ?_ (fun _ => Iff.rfl) rfl
        rw [mydesk_session, hempty]
      · exact (h.session hme _).restoreCreate hme _ _

/-- The agent forgets another user. -/
theorem Sound.forget (h : Sound w me) (hne : uid ≠ me) : Sound (forget w uid) me := by
  refine h.others rfl rfl ?_ (fun _ => Iff.rfl) rfl
  change (Function.update w.users uid none me).getD {} = _
  rw [Function.update_of_ne hne.symm]
  rfl

end Sessions

/-! ### Runs -/

/-- **One operation.** -/
theorem Sound.next {w w' : World} {me : ℕ} (h : Sound w me) (hn : Next me w w') : Sound w' me := by
  cases hn with
  | openGame name =>
      have hsame : (Lobby.openGame w.lobby name).d.buffer = w.lobby.buffer ∧
          (Lobby.openGame w.lobby name).d.deskmap = w.lobby.deskmap := by
        unfold Lobby.openGame
        split <;> exact ⟨rfl, rfl⟩
      have hn : Numbered (Lobby.openGame w.lobby name).d :=
        ⟨hsame.1 ▸ h.ground.numbered.nodup, by rw [hsame.1, hsame.2]; exact h.ground.numbered.free⟩
      exact h.lobby hn fun id => by rw [hsame.2]
  | create uid info inp left => exact h.create info inp left
  | join uid id inp inps hf => exact h.join hf
  | leave uid inp inps hf => exact h.leave hf
  | staying id r inp inps hr hf => exact h.request hr hf
  | dismissApply id uid inps hf => exact h.dismissApply hf
  | monitorWork id inp inps hq hf => exact h.monitorWork hq hf
  | freeDesk id r inps hl hf => exact h.freeDesk hl hf
  | plays id d hp => exact h.plays hp
  | assign uid => exact h.assign uid
  | forget uid hne => exact h.forget hne

/-- **The services start in agreement.** -/
theorem sound_start (me lo n load limit : ℕ) (roompara : Bool → ℕ → Option ℤ) (select : ℕ → ℕ) :
    Sound (start lo n load limit roompara select) me := by
  have hnone : ∀ id, (start lo n load limit roompara select).lobby.deskmap.lookup id = none :=
    fun _ => rfl
  have howns : ∀ id, ¬ Owns (start lo n load limit roompara select) me id := by
    rintro id ⟨e, he, -⟩
    rw [hnone] at he
    cases he
  have hnodup : (start lo n load limit roompara select).lobby.buffer.Nodup := by
    change (Lobby.initDeskidBuffer (fun _ => false) lo n []).Nodup
    rw [Lobby.initDeskidBuffer_eq]
    exact List.nodup_range'
  refine ⟨⟨⟨hnodup, fun id _ => hnone id⟩, fun id => ?_, fun id e he => ?_,
    fun id => ?_, List.nodup_nil⟩, fun id hl => ?_, fun s => ?_, home_of_none rfl rfl⟩
  · rw [hnone]
    exact ⟨fun hl => (by cases hl), fun hs => (by cases hs)⟩
  · rw [hnone] at he
    cases he
  · exact ⟨fun hid => (by cases hid), fun hown => absurd hown (howns id)⟩
  · cases hl
  · refine ⟨fun hs => ?_, ?_⟩
    · exact absurd hs (AList.notMem_empty s)
    · rintro ⟨id, -, -, hown⟩
      exact absurd hown (howns id)

/-- **The records agree** in every run. -/
theorem sound_of_run {me lo n load limit : ℕ} {roompara : Bool → ℕ → Option ℤ}
    {select : ℕ → ℕ} {w : World}
    (h : Run me (start lo n load limit roompara select) w) : Sound w me := by
  induction h with
  | refl => exact sound_start me lo n load limit roompara select
  | tail _ hn ih => exact ih.next hn

end Halieutics.Mydesk
