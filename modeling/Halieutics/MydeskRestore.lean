/-
**The session that is built anew.**

`restore_mydesk_from_db` asks the user store and the lobby for the desks of a user.  After every run
the session it would build has the same active desk as the session that was never interrupted, and
it lists all desks the user has created.  But it also lists the active desk, whoever has created
that; `cli:join` of the same service does not.

Main results:

* `Halieutics.Mydesk.Sound.agrees_iff` — what the two sessions have in common, when the records
  agree;
* `Halieutics.Mydesk.rebuilt_agrees_iff` — **the two sessions agree exactly when the user is at no
  desk, or at a desk he has created himself**.
-/

import Halieutics.MydeskRuns

set_option relaxedAutoImplicit false
set_option autoImplicit false

namespace Halieutics.Mydesk

/-- **Nothing is lost or invented**: the same active desk, and the same desks created. -/
structure Agrees (m m' : MyDesk) : Prop where
  active : m'.active.map Room.id = m.active.map Room.id
  create : ∀ id, id ∈ m'.ids ↔ id ∈ m.ids

section Restore

variable {w : World} {me : ℕ}

/-- Who has created the desk the user is at. -/
theorem Sound.owns_active (h : Sound w me) {r : Room} (hr : (w.mydesk me).active = some r) :
    Owns w me r.id ↔ r.desk.creater = me := by
  obtain ⟨hlive, -, hcreater⟩ := h.home.there r hr
  obtain ⟨e, he⟩ := Option.isSome_iff_exists.1 ((h.ground.live r.id).1 hlive)
  rw [hcreater, h.ground.creater r.id e he]
  constructor
  · rintro ⟨e', he', hown⟩
    rw [Option.some_inj.1 (he.symm.trans he')]
    exact hown
  · exact fun hown => ⟨e, he, hown⟩

/-- What the two sessions have in common. -/
theorem Sound.agrees_iff (h : Sound w me) :
    Agrees (w.mydesk me) (rebuilt w me) ↔ ∀ r, (w.mydesk me).active = some r →
    r.desk.creater = me := by
  obtain ⟨m, hrestore, hactive, hids⟩ := h.restoreMydesk
  rw [rebuilt, hrestore, mydesk_session]
  constructor
  · intro hA r hr
    have hin : r.id ∈ m.ids := (hids r.id).2 (Or.inl ⟨r, hr, rfl⟩)
    exact (h.owns_active hr).1 ((h.ground.created r.id).1 ((hA.create r.id).1 hin))
  · intro hown
    refine ⟨hactive, fun id => ?_⟩
    rw [hids, h.ground.created]
    constructor
    · rintro (⟨r, hr, rfl⟩ | h')
      · exact (h.owns_active hr).2 (hown r hr)
      · exact h'
    · exact Or.inr

end Restore

/-- **The session that is built anew agrees with the uninterrupted one exactly when the user is at
no desk, or at a desk he has created himself**: after every sequence of operations. -/
theorem rebuilt_agrees_iff {me lo n load limit : ℕ} {roompara : Bool → ℕ → Option ℤ}
    {select : ℕ → ℕ}
    {w : World} {m : MyDesk} (h : Run me (start lo n load limit roompara select) w)
    (hm : w.users me = some m) :
    Agrees m (rebuilt w me) ↔ ∀ r, m.active = some r → r.desk.creater = me := by
  have hmydesk : w.mydesk me = m := by rw [World.mydesk, hm]; rfl
  rw [← hmydesk]
  exact (sound_of_run h).agrees_iff

/-- The services of the examples: one number, and desks that cost nothing. -/
def small : World := start 100001 1 8 2 (fun _ _ => some 0) fun _ => 0

/-- The user 1 has created the desk 100001. -/
def smallDesk : World :=
  let w := agentAssign small 1
  let w := { w with lobby := (Lobby.openGame w.lobby "fish").d }
  cliCreate w 1 { game := "fish", timelimit := 30 } {} 0

theorem run_smallDesk (me : ℕ) : Run me small smallDesk := by
  have hassign : Next me small (agentAssign small 1) := .assign 1
  have hopen : Next me (agentAssign small 1)
      { agentAssign small 1 with lobby := (Lobby.openGame (agentAssign small 1).lobby "fish").d } :=
        .openGame "fish"
  have hcreate : Next me
    { agentAssign small 1 with lobby := (Lobby.openGame (agentAssign small 1).lobby "fish").d }
      smallDesk := .create 1 { game := "fish", timelimit := 30 } {} 0
  exact ((Relation.ReflTransGen.single hassign).tail hopen).tail hcreate

/-- A user joins the desk. -/
theorem exists_joined (w : World) (uid id : ℕ) {p : MyDesk → Bool}
    (h : ((cliJoin w uid id {} [{}, {}]).any fun w => (w.users uid).any p) = true) (me : ℕ) :
    ∃ w' m, Next me w w' ∧ w'.users uid = some m ∧ p m = true := by
  obtain ⟨w', hw, hany⟩ := (Option.any_eq_true _ _).1 h
  obtain ⟨m, hm, hp⟩ := (Option.any_eq_true _ _).1 hany
  exact ⟨w', m, .join uid id {} [{}, {}] hw, hm, hp⟩

/-- The user who has created the desk joins it. -/
theorem rebuilt_agrees_ownDesk :
    ∃ w m, Run 1 small w ∧ w.users 1 = some m ∧ m.active.isSome = true ∧
    Agrees m (rebuilt w 1) := by
  obtain ⟨w, m, hjoin, hm, hp⟩ := exists_joined smallDesk 1 100001
    (p := fun m => m.active.any fun r => r.desk.creater == 1) (by decide +kernel) 1
  have hrun : Run 1 small w := (run_smallDesk 1).tail hjoin
  obtain ⟨r, hr, hcreater⟩ := (Option.any_eq_true _ _).1 hp
  refine ⟨w, m, hrun, hm, by rw [hr]; rfl, (rebuilt_agrees_iff hrun hm).2 fun r' hr' => ?_⟩
  rw [← Option.some_inj.1 (hr.symm.trans hr')]
  exact beq_iff_eq.1 hcreater

/-- **Another user joins it**: his session, built anew, lists it among the desks he has created. -/
theorem join_invents_desk :
    ∃ w m, Run 2 small w ∧ w.users 2 = some m ∧ ¬ Agrees m (rebuilt w 2) := by
  obtain ⟨w, m, hjoin, hm, hp⟩ := exists_joined (agentAssign smallDesk 2) 2 100001
    (p := fun m => m.active.any fun r => r.desk.creater == 1) (by decide +kernel) 2
  have hrun : Run 2 small w := ((run_smallDesk 2).tail (.assign 2)).tail hjoin
  obtain ⟨r, hr, hcreater⟩ := (Option.any_eq_true _ _).1 hp
  have hmydesk : w.mydesk 2 = m := by rw [World.mydesk, hm]; rfl
  refine ⟨w, m, hrun, hm, fun hA => ?_⟩
  have hown := (sound_of_run hrun).agrees_iff.1 (hmydesk ▸ hA) r (hmydesk ▸ hr)
  rw [beq_iff_eq.1 hcreater] at hown
  cases hown

end Halieutics.Mydesk
