/-
**Votes on a dismissal: `wait_dismiss`, `cli:dismiss_apply` and `cli:dismiss_reply`.**

Whoever is at a desk whose game has begun may apply for its dismissal.  Everybody else who is seated
is asked; the vote is a barrier of `Halieutics.Sync` that the agreeing arrive at and a refusal
abandons, and after thirty seconds those who have agreed so far are counted.

What a vote means is written down apart from the code, by an observer that keeps a ballot: who has
applied, who was seated when the vote opened, and what each of them answered first.  An answer after
the first is no vote; the desk refuses it.

Main definitions:

* `Halieutics.Ballot`, `Halieutics.Polls`, `Halieutics.pollNote` — **the observer**, and the ballots
  it keeps;
* `Halieutics.Ballot.Sound` — **what the players may expect**: a game is interrupted only when all
  of the others have agreed, or, when time has run out, a majority of the seated; and never against
  a refusal;
* `Halieutics.KeepsVote` — the condition: seats tell the players apart as their ids do, and when
  time runs out an applicant who has no seat does not tip the scales.

Main results:

* `Halieutics.Polling.agree`, `Halieutics.Polling.refuse`, `Halieutics.Polling.skip` — what an
  answer does to a vote;
* `Halieutics.sound_of_keepsVote` — **the votes are sound in every run that meets the condition**;
* `Halieutics.audience_tips_the_scales` — one of two players and an applicant who watches end a
  game.
-/

import Halieutics.DeskControl
import Halieutics.FishScores
import Halieutics.SyncBarrier

set_option relaxedAutoImplicit false
set_option autoImplicit false

namespace Halieutics

open LuaTable Coroutine

/-! ### The observer -/

/-- A vote as the players see it: the applicant, those who are seated when the vote opens, and the
first answer of each user. -/
structure Ballot where
  applicant : ℕ := 0
  seated : Finset ℕ := ∅
  votes : Table ℕ Bool := ∅

/-- The votes of a desk: the last ballot, and those on which `game_interrupt` was called. -/
structure Polls where
  ballot : Ballot := {}
  interrupts : List (Ballot × DeskErr) := []

namespace Ballot

/-- An answer. -/
def record (b : Ballot) (uid : ℕ) (agree : Bool) : Ballot :=
  if (b.votes.lookup uid).isSome then b else { b with votes := b.votes.insert uid agree }

/-- Those who are asked: all who are seated but the applicant. -/
def electorate (b : Ballot) : Finset ℕ := b.seated.erase b.applicant

/-- Those who were asked and have agreed. -/
def agreed (b : Ballot) : Finset ℕ := b.electorate.filter fun id => b.votes.lookup id = some true

/-- Those of the seated who are in favour. -/
def inFavour (b : Ballot) : Finset ℕ :=
  b.seated.filter fun id => id = b.applicant ∨ b.votes.lookup id = some true

/-- **What the players may expect of a vote** that has ended with the reason `err`. -/
structure Sound (b : Ballot) (err : DeskErr) : Prop where
  all : err = .dismissbyuser → ∀ id ∈ b.electorate, b.votes.lookup id = some true
  most : err = .dismissbytimeout → b.seated.card < 2 * b.inFavour.card
  none : ∀ id ∈ b.electorate, b.votes.lookup id ≠ some false

end Ballot

/-- The ids of those who are seated. -/
def Desk.seatedIds (d : Desk) : Finset ℕ := ((vals d.users).map fun u => (d.objs u).id).toFinset

/-- The reason with which `wait_dismiss` calls `game_interrupt`. -/
def Vote.passes (v : Vote) (usern : ℕ) : Option DeskErr :=
  match v.sync.driver with
  | some .message => some .dismissbyuser
  | some .timeout => if usern < 2 * (v.reply.length + 1) then some .dismissbytimeout else none
  | _ => none

/-- The vote that is on passes. -/
def Desk.passes (d : Desk) (usern : ℕ) : Option DeskErr :=
  match d.dismiss with
  | .vote v => v.passes usern
  | _ => none

/-- `cli:dismiss_apply` opens a vote. -/
def Desk.opensVote (d : Desk) : Bool :=
  match d.dismiss with
  | .no => d.started
  | _ => false

/-- **The observer.** -/
def pollNote (d : Desk) (j : Job) (w : Polls) : Polls :=
  match j with
  | .seg .voteStart => { w with ballot := { w.ballot with seated := d.seatedIds, votes := ∅ } }
  | .seg (.vote usern) =>
      match d.passes usern with
      | some err => { w with interrupts := (w.ballot, err) :: w.interrupts }
      | none => w
  | j =>
      match j.command d with
      | some (u, .dismissApply) =>
          if d.opensVote then { w with ballot := { applicant := (d.objs u).id } } else w
      | some (u, .dismissReply agree) => { w with ballot := w.ballot.record (d.objs u).id agree }
      | _ => w

/-! ### The condition -/

/-- The seats tell those who are seated apart, and the applicant from the others. -/
def Desk.keepsApart (d : Desk) (v : Vote) (applicant : ℕ) : Prop :=
  (∀ u ∈ vals d.users, ∀ u' ∈ vals d.users,
    (d.objs u).seat = (d.objs u').seat ↔ (d.objs u).id = (d.objs u').id) ∧
  ∀ u ∈ vals d.users, (d.objs u).seat = v.applyer ↔ (d.objs u).id = applicant

/-- Whoever answers sits where he was asked. -/
def Vote.knows (v : Vote) (user : User) : Prop :=
  ∀ e ∈ v.wait.entries, e.1 = user.seat ↔ e.2 = user.id

/-- When time runs out, the applicant is seated, or the others are enough. -/
def Vote.counts (v : Vote) (b : Ballot) (usern : ℕ) : Prop :=
  v.passes usern = some .dismissbytimeout →
    b.applicant ∈ b.seated ∨ b.seated.card < 2 * v.reply.length

/-- **The condition.** -/
def KeepsVote (d : Desk) (w : Polls) (j : Job) : Prop :=
  match d.dismiss, j with
  | .vote v, .seg .voteStart => d.keepsApart v w.ballot.applicant
  | .vote v, .seg (.vote usern) => v.counts w.ballot usern
  | .vote v, j =>
      match j.command d with
      | some (u, .dismissReply _) => v.knows (d.objs u)
      | _ => True
  | _, _ => True

/-- The same, for events. -/
def VoteKept (s : Sys) (w : Polls) (e : Ev) : Prop := Under (fun s j => KeepsVote s.shared w j) s e

instance (d : Desk) (v : Vote) (applicant : ℕ) : Decidable (d.keepsApart v applicant) :=
  inferInstanceAs (Decidable (_ ∧ _))

instance (v : Vote) (user : User) : Decidable (v.knows user) :=
  inferInstanceAs (Decidable (∀ e ∈ v.wait.entries, _))

instance (v : Vote) (b : Ballot) (usern : ℕ) : Decidable (v.counts b usern) :=
  inferInstanceAs (Decidable (_ → _))

instance (d : Desk) (w : Polls) (j : Job) : Decidable (KeepsVote d w j) := by
  unfold KeepsVote
  split
  · infer_instance
  · infer_instance
  · split <;> infer_instance
  · infer_instance

instance (s : Sys) (w : Polls) (e : Ev) : Decidable (VoteKept s w e) :=
  inferInstanceAs (Decidable (Under _ s e))

/-! ### Ballots -/

variable {d : Desk} {b : Ballot} {v : Vote} {w : Polls}

@[simp] theorem Ballot.record_seated (b : Ballot) (uid : ℕ) (agree : Bool) :
    (b.record uid agree).seated = b.seated := by
  unfold Ballot.record
  split <;> rfl

@[simp] theorem Ballot.record_electorate (b : Ballot) (uid : ℕ) (agree : Bool) :
    (b.record uid agree).electorate = b.electorate := by
  unfold Ballot.record
  split <;> rfl

/-- Only a first answer is recorded. -/
theorem Ballot.lookup_record (b : Ballot) (uid : ℕ) (agree : Bool) (id : ℕ) :
    (b.record uid agree).votes.lookup id =
      if id = uid ∧ b.votes.lookup uid = Option.none then some agree else b.votes.lookup id := by
  unfold Ballot.record
  cases h : b.votes.lookup uid with
  | none =>
      dsimp only [Option.isSome_none]
      rw [if_neg Bool.false_ne_true, lookup_insert_eq]
      simp
  | some a => simp

theorem Ballot.lookup_record_ne {uid id : ℕ} (h : id ≠ uid) (agree : Bool) :
    (b.record uid agree).votes.lookup id = b.votes.lookup id := by
  rw [Ballot.lookup_record, if_neg fun hu => h hu.1]

/-- The applicant is in favour, and so are those who have agreed. -/
theorem Ballot.card_agreed_le (b : Ballot) : b.agreed.card ≤ b.inFavour.card := by
  refine Finset.card_le_card fun id hid => ?_
  obtain ⟨hel, hvote⟩ := Finset.mem_filter.1 hid
  exact Finset.mem_filter.2 ⟨Finset.mem_of_mem_erase hel, Or.inr hvote⟩

theorem Ballot.card_agreed_lt (h : b.applicant ∈ b.seated) :
    b.agreed.card < b.inFavour.card := by
  have hout : b.applicant ∉ b.agreed := fun hmem =>
    Finset.notMem_erase b.applicant b.seated (Finset.mem_filter.1 hmem).1
  have hsub : insert b.applicant b.agreed ⊆ b.inFavour := by
    intro id hid
    rcases Finset.mem_insert.1 hid with rfl | hid
    · exact Finset.mem_filter.2 ⟨h, Or.inl rfl⟩
    · obtain ⟨hel, hvote⟩ := Finset.mem_filter.1 hid
      exact Finset.mem_filter.2 ⟨Finset.mem_of_mem_erase hel, Or.inr hvote⟩
  calc b.agreed.card < (insert b.applicant b.agreed).card := by
        rw [Finset.card_insert_of_notMem hout]
        omega
    _ ≤ b.inFavour.card := Finset.card_le_card hsub

/-- Another voter agrees. -/
theorem Ballot.card_agreed_record {uid : ℕ} (hel : uid ∈ b.electorate)
    (hnew : b.votes.lookup uid = Option.none) :
    (b.record uid true).agreed.card = b.agreed.card + 1 := by
  have hout : uid ∉ b.agreed := by
    intro hmem
    rw [Ballot.agreed, Finset.mem_filter, hnew] at hmem
    cases hmem.2
  have heq : (b.record uid true).agreed = insert uid b.agreed := by
    ext id
    rw [Finset.mem_insert, Ballot.agreed, Ballot.agreed, Finset.mem_filter, Finset.mem_filter,
      Ballot.record_electorate, Ballot.lookup_record]
    by_cases hid : id = uid
    · subst hid
      simp [hel, hnew]
    · simp [hid]
  rw [heq, Finset.card_insert_of_notMem hout]

/-! ### A vote that is on -/

/-- **The vote goes on**: those in `wait` are those who were asked and have not answered, the others
have agreed, and the barrier knows both. -/
structure Vote.Open (v : Vote) (b : Ballot) : Prop where
  driver : v.sync.driver = some .timeout
  waiting : v.sync.waiting = some .dismiss
  counts : b.electorate = ∅ ∨ Barrier.Counts ⟨v.sync, v.reply.reverse⟩
  listed : ∀ seat id, v.wait.lookup seat = some id → id ∈ b.electorate ∧ b.votes.lookup id = none ∧
    seat ∈ v.sync.regs ∧ seat ∉ v.reply
  voters : ∀ id ∈ b.electorate, b.votes.lookup id = some true ∨
    b.votes.lookup id = none ∧ ∃ seat, v.wait.lookup seat = some id
  once : ∀ seat seat' id, v.wait.lookup seat = some id → v.wait.lookup seat' = some id →
    seat = seat'
  reply : v.reply.length = b.agreed.card

/-- A vote that is on, or whose outcome is certain. -/
inductive Polling (v : Vote) (b : Ballot) : Prop
  | goesOn : v.Open b → Polling v b
  | agreed : v.sync.driver = some .message → v.sync.waiting = none →
      (∀ id ∈ b.electorate, b.votes.lookup id = some true) → Polling v b
  | refused : v.sync.driver = some .abandon → v.sync.waiting = none → Polling v b

/-- Answers of others do not matter. -/
theorem Polling.congr {b' : Ballot} (he : b'.electorate = b.electorate)
    (hv : ∀ id ∈ b.electorate, b'.votes.lookup id = b.votes.lookup id) (h : Polling v b) :
    Polling v b' := by
  cases h with
  | goesOn h =>
      refine .goesOn ⟨h.driver, h.waiting, he ▸ h.counts, ?_, ?_, h.once, ?_⟩
      · intro seat id hw
        obtain ⟨hel, hnone, hrest⟩ := h.listed seat id hw
        exact ⟨he ▸ hel, (hv id hel).trans hnone, hrest⟩
      · intro id hel
        rw [he] at hel
        rw [hv id hel]
        exact h.voters id hel
      · rw [h.reply, Ballot.agreed, Ballot.agreed, he]
        exact congrArg _ (Finset.filter_congr fun id hel => by rw [hv id hel])
  | agreed hd hw hall =>
      refine .agreed hd hw fun id hel => ?_
      rw [he] at hel
      rw [hv id hel]
      exact hall id hel
  | refused hd hw => exact .refused hd hw

/-- Whoever is in `wait` is known by his seat. -/
theorem Vote.knows.iff {user : User} (h : v.knows user) {seat : ℤ} {id : ℕ}
    (hw : v.wait.lookup seat = some id) : seat = user.seat ↔ id = user.id :=
  h ⟨seat, id⟩ (AList.mem_lookup_iff.1 hw)

/-- An answer of somebody who is not asked, or not any more. -/
theorem Polling.skip {user : User} (h : Polling v b) (hk : v.knows user)
    (hw : v.wait.lookup user.seat = none) (agree : Bool) :
    Polling v (b.record user.id agree) := by
  have same : ∀ id ∈ b.electorate, b.votes.lookup id ≠ none →
      (b.record user.id agree).votes.lookup id = b.votes.lookup id := by
    intro id _ hid
    rw [Ballot.lookup_record, if_neg]
    rintro ⟨rfl, hnone⟩
    exact hid hnone
  cases h with
  | goesOn h =>
      refine Polling.congr (by simp) ?_ (.goesOn h)
      intro id hel
      rcases h.voters id hel with hyes | ⟨-, seat, hseat⟩
      · exact same id hel (by simp [hyes])
      · refine Ballot.lookup_record_ne ?_ agree
        intro hid
        rw [(hk.iff hseat).2 hid, hw] at hseat
        cases hseat
  | agreed hd hwait hall =>
      refine Polling.congr (by simp) ?_ (.agreed hd hwait hall)
      intro id hel
      exact same id hel (by simp [hall id hel])
  | refused hd hwait => exact .refused hd hwait

/-- **A voter agrees.** -/
theorem Polling.agree {user : User} {id : ℕ} (h : Polling v b) (hk : v.knows user)
    (hw : v.wait.lookup user.seat = some id) :
    Polling { v with wait := v.wait.erase user.seat, reply := v.reply ++ [user.seat],
                     sync := (v.sync.arrive .dismiss user.seat).1 } (b.record user.id true) := by
  have late : v.sync.waiting = none → (v.sync.arrive .dismiss user.seat).1 = v.sync := fun hn =>
    Barrier.arrive_other (Or.inl (by rw [hn]; rintro ⟨⟩))
  cases h with
  | refused hd hwait =>
      refine .refused ?_ ?_
      · dsimp only
        rw [late hwait, hd]
      · dsimp only
        rw [late hwait, hwait]
  | agreed hd hwait hall =>
      refine .agreed ?_ ?_ ?_
      · dsimp only
        rw [late hwait, hd]
      · dsimp only
        rw [late hwait, hwait]
      · intro i hel
        rw [Ballot.record_electorate] at hel
        rw [Ballot.lookup_record, hall i hel]
        split <;> rfl
  | goesOn h =>
      have hid : id = user.id := (hk.iff hw).1 rfl
      subst hid
      obtain ⟨hel, hnew, hreg, hout⟩ := h.listed _ _ hw
      have hcounts : Barrier.Counts ⟨v.sync, v.reply.reverse⟩ := by
        refine h.counts.resolve_left fun hemp => ?_
        rw [hemp] at hel
        exact Finset.notMem_empty _ hel
      -- the answers that are still missing afterwards
      have others : ∀ i ∈ b.electorate, (b.record user.id true).votes.lookup i = some true ∨
          (b.record user.id true).votes.lookup i = none ∧
            ∃ seat, seat ≠ user.seat ∧ v.wait.lookup seat = some i := by
        intro i hi
        by_cases hiu : i = user.id
        · left
          rw [hiu, Ballot.lookup_record, if_pos ⟨rfl, hnew⟩]
        · rw [Ballot.lookup_record_ne hiu]
          refine (h.voters i hi).imp_right ?_
          rintro ⟨hnone, seat, hseat⟩
          refine ⟨hnone, seat, ?_, hseat⟩
          rintro rfl
          rw [hw] at hseat
          exact hiu (Option.some_inj.1 hseat).symm
      obtain ⟨us, hus⟩ : ∃ us, v.sync.users = some us := by
        obtain ⟨us, hus, -⟩ := hcounts.counter (by rw [h.waiting]; rfl)
        exact ⟨us, hus⟩
      have hreg' : user.seat ∈ us.regs := by simpa [Sync.regs, hus] using hreg
      have harr := Barrier.arrive_registered h.waiting hus hreg'
      have hregs : (v.sync.arrive .dismiss user.seat).1.regs = v.sync.regs := by
        rw [harr, Sync.regs, Sync.regs, hus]
        split <;> rfl
      have hfair : Barrier.fair ⟨v.sync, v.reply.reverse⟩ (.arrive .dismiss user.seat) = true := by
        simp [Barrier.fair, hout]
      have hstep : Barrier.step ⟨v.sync, v.reply.reverse⟩ (.arrive .dismiss user.seat) =
          ⟨(v.sync.arrive .dismiss user.seat).1, (v.reply ++ [user.seat]).reverse⟩ := by
        simp [Barrier.step, h.waiting]
      obtain ⟨hcounts', hdue⟩ := hcounts.arrive hfair
      rw [hstep] at hcounts' hdue
      by_cases hlast : us.count = us.counter + 1
      · rw [if_pos hlast] at harr
        -- the last arrival: everybody who is registered has agreed
        have hdue' := (hdue (by rw [h.waiting]; rfl)).1 (by rw [harr])
        refine .agreed (by rw [harr]) (by rw [harr]) fun i hi => ?_
        rw [Ballot.record_electorate] at hi
        refine (others i hi).resolve_right ?_
        rintro ⟨-, seat, hne, hseat⟩
        obtain ⟨-, -, hsreg, hsout⟩ := h.listed seat i hseat
        have hmem := hdue' seat (hregs ▸ hsreg)
        simp only [List.reverse_append, List.reverse_singleton, List.singleton_append,
          List.mem_cons, List.mem_reverse] at hmem
        exact hmem.elim hne hsout
      · rw [if_neg hlast] at harr
        refine .goesOn ⟨by rw [harr]; exact h.driver, by rw [harr]; exact h.waiting,
          Or.inr hcounts',
          ?_, ?_, ?_, ?_⟩
        · intro seat i hseat
          dsimp only at hseat
          rw [lookup_erase_eq] at hseat
          split at hseat
          · cases hseat
          · rename_i hne
            obtain ⟨hi, hnone, hsreg, hsout⟩ := h.listed seat i hseat
            have hiu : i ≠ user.id := by
              rintro rfl
              exact hne (h.once _ _ _ hseat hw)
            refine ⟨by rwa [Ballot.record_electorate], ?_, ?_, ?_⟩
            · rw [Ballot.lookup_record_ne hiu]
              exact hnone
            · exact hregs ▸ hsreg
            · simp [hsout, hne]
        · intro i hi
          rw [Ballot.record_electorate] at hi
          refine (others i hi).imp_right ?_
          rintro ⟨hnone, seat, hne, hseat⟩
          refine ⟨hnone, seat, ?_⟩
          dsimp only
          rw [lookup_erase_eq, if_neg hne]
          exact hseat
        · intro seat seat' i hs hs'
          dsimp only at hs hs'
          rw [lookup_erase_eq] at hs hs'
          split at hs
          · cases hs
          · split at hs'
            · cases hs'
            · exact h.once _ _ _ hs hs'
        · rw [Ballot.card_agreed_record hel hnew, ← h.reply]
          simp

/-- **A voter refuses.** -/
theorem Polling.refuse (h : Polling v b) (user : User) :
    Polling { v with wait := v.wait.erase user.seat, sync := v.sync.abandon }
      (b.record user.id false) := by
  have late : v.sync.waiting = none → v.sync.abandon = v.sync := fun hn => by
    simp [Sync.abandon, hn]
  cases h with
  | goesOn h =>
      have habandon : v.sync.abandon =
        { users := none, waiting := none, driver := some .abandon } := by
        simp [Sync.abandon, h.waiting]
      exact .refused (by rw [habandon]) (by rw [habandon])
  | refused hd hwait => exact .refused (by rw [late hwait, hd]) (by rw [late hwait, hwait])
  | agreed hd hwait hall =>
      refine .agreed (by rw [late hwait, hd]) (by rw [late hwait, hwait]) fun id hel => ?_
      rw [Ballot.record_electorate] at hel
      rw [Ballot.lookup_record, if_neg]
      · exact hall id hel
      · rintro ⟨rfl, hnone⟩
        rw [hall _ hel] at hnone
        cases hnone

/-! ### A vote that opens -/

/-- The voter `u` is asked. -/
def ask (d : Desk) (v : Vote) (u : Ref) : Vote :=
  { v with
    sync := v.sync.add (d.objs u).seat true
    wait := v.wait.insert (d.objs u).seat (d.objs u).id }

/-- The users `us` have been asked, and nobody else. -/
structure Asked (d : Desk) (us : List Ref) (v : Vote) : Prop where
  counts : Barrier.Counts ⟨v.sync, []⟩
  waiting : v.sync.waiting = none
  counter : (v.sync.users.getD {}).counter = 0
  reply : v.reply = []
  regs : ∀ seat, seat ∈ v.sync.regs ↔ (v.wait.lookup seat).isSome
  sound : ∀ seat id, v.wait.lookup seat = some id →
    ∃ u ∈ us, (d.objs u).seat = seat ∧ (d.objs u).id = id
  all : ∀ u ∈ us, v.wait.lookup (d.objs u).seat = some (d.objs u).id

theorem asked_nil (hs : v.sync = {}) (hw : v.wait = ∅) (hr : v.reply = []) : Asked d [] v where
  counts := by
    rw [hs]
    exact Barrier.counts_new
  waiting := by rw [hs]
  counter := by
    rw [hs]
    rfl
  reply := hr
  regs := by
    intro seat
    rw [hs, hw]
    exact iff_of_false (by decide +revert) (by simp)
  sound := by
    intro seat id h
    rw [hw] at h
    cases h
  all := nofun

/-- Asking one more. -/
theorem Asked.ask {us : List Ref} (h : Asked d us v) {u : Ref}
    (hu : ∀ u' ∈ us, (d.objs u').seat = (d.objs u).seat → (d.objs u').id = (d.objs u).id) :
    Asked d (u :: us) (ask d v u) := by
  obtain ⟨hregs, hcounter⟩ := Sync.regs_enter v.sync (d.objs u).seat
  have hcounts : Barrier.Counts (Barrier.step ⟨v.sync, []⟩ (.add (d.objs u).seat true)) := by
    refine h.counts.add ?_
    simp [Barrier.fair, h.waiting]
  refine ⟨hcounts, ?_, hcounter.trans h.counter, h.reply, ?_, ?_, ?_⟩
  · exact (Sync.add_waiting _ _ _).trans h.waiting
  · intro seat
    change seat ∈ (v.sync.add (d.objs u).seat true).regs ↔ ((v.wait.insert _ _).lookup seat).isSome
    rw [hregs, Finset.mem_insert, h.regs seat, lookup_insert_eq]
    by_cases hseat : seat = (d.objs u).seat
    · simp [hseat]
    · simp [hseat]
  · intro seat id hw
    change (v.wait.insert _ _).lookup seat = some id at hw
    rw [lookup_insert_eq] at hw
    split at hw
    · rename_i hseat
      exact ⟨u, List.mem_cons_self, hseat.symm, Option.some_inj.1 hw⟩
    · obtain ⟨u', hu', hrest⟩ := h.sound seat id hw
      exact ⟨u', List.mem_cons_of_mem u hu', hrest⟩
  · intro u' hu'
    change (v.wait.insert _ _).lookup _ = some _
    rw [lookup_insert_eq]
    rcases List.mem_cons.1 hu' with rfl | hu'
    · rw [if_pos rfl]
    · split
      · rename_i hseat
        rw [hu u' hu' hseat]
      · exact h.all u' hu'

/-- **Asking all of `us`.** -/
theorem Asked.askAll {us' : List Ref} (h : Asked d us' v) (us : List Ref)
    (hu : ∀ u ∈ us ++ us', ∀ u' ∈ us ++ us', (d.objs u).seat = (d.objs u').seat →
      (d.objs u).id = (d.objs u').id) :
    ∃ us₁, Asked d us₁ (us.foldl (Halieutics.ask d) v) ∧ ∀ u, u ∈ us₁ ↔ u ∈ us ∨ u ∈ us' := by
  induction us generalizing us' v with
  | nil => exact ⟨us', h, fun u => by simp⟩
  | cons u us ih =>
      have hnext : Asked d (u :: us') (Halieutics.ask d v u) := by
        refine h.ask fun u' hu' hs => ?_
        exact hu u' (List.mem_append_right _ hu') u List.mem_cons_self hs
      obtain ⟨us₁, hasked, hmem⟩ := ih hnext fun u₁ h₁ u₂ h₂ => by
        refine hu u₁ ?_ u₂ ?_
        · simp only [List.mem_append, List.mem_cons] at h₁ ⊢
          tauto
        · simp only [List.mem_append, List.mem_cons] at h₂ ⊢
          tauto
      refine ⟨us₁, hasked, fun u' => ?_⟩
      rw [hmem, List.mem_cons, List.mem_cons]
      tauto

/-- Those who are asked. -/
def Desk.voters (d : Desk) (v : Vote) : List Ref :=
  (vals d.users).filter fun u => (d.objs u).seat != v.applyer

/-- **The vote opens.** -/
theorem open_voteStart (hs : v.sync = {}) (hw : v.wait = ∅) (hr : v.reply = [])
    (hapart : d.keepsApart v b.applicant) (hb : b.seated = d.seatedIds) (hv : b.votes = ∅) :
    ∃ s, ((d.voters v).foldl (ask d) v).sync.wait .dismiss = some s ∧
      Vote.Open { (d.voters v).foldl (ask d) v with sync := s } b := by
  obtain ⟨hdist, happ⟩ := hapart
  have hsub : ∀ u ∈ d.voters v, u ∈ vals d.users ∧ (d.objs u).seat ≠ v.applyer := by
    intro u hu
    obtain ⟨hmem, hne⟩ := List.mem_filter.1 hu
    exact ⟨hmem, by simpa using hne⟩
  obtain ⟨us, hasked, hmem⟩ := (asked_nil (d := d) hs hw hr).askAll (d.voters v)
    fun u hu u' hu' hseat => by
      rw [List.append_nil] at hu hu'
      exact (hdist u (hsub u hu).1 u' (hsub u' hu').1).1 hseat
  have hus : ∀ u, u ∈ us ↔ u ∈ d.voters v := fun u => by simpa using hmem u
  generalize (d.voters v).foldl (ask d) v = v' at hasked ⊢
  have hel : ∀ id, id ∈ b.electorate ↔ ∃ u ∈ us, (d.objs u).id = id := by
    intro id
    rw [Ballot.electorate, Finset.mem_erase, hb, Desk.seatedIds, List.mem_toFinset, List.mem_map]
    constructor
    · rintro ⟨hne, u, hu, rfl⟩
      refine ⟨u, (hus u).2 (List.mem_filter.2 ⟨hu, ?_⟩), rfl⟩
      simpa [happ u hu] using hne
    · rintro ⟨u, hu, rfl⟩
      obtain ⟨hu, hne⟩ := hsub u ((hus u).1 hu)
      exact ⟨fun h => hne ((happ u hu).2 h), u, hu, rfl⟩
  have hreply : v'.reply = [] := hasked.reply
  refine ⟨{ v'.sync with waiting := some .dismiss, driver := some .timeout }, ?_,
    rfl, rfl, ?_, ?_, ?_, ?_, ?_⟩
  · simp [Sync.wait, hasked.waiting]
  · rcases Finset.eq_empty_or_nonempty b.electorate with hemp | ⟨id, hid⟩
    · exact Or.inl hemp
    · right
      obtain ⟨u, hu, -⟩ := (hel id).1 hid
      have hne : v'.sync.regs.Nonempty := by
        refine ⟨(d.objs u).seat, (hasked.regs _).2 ?_⟩
        rw [hasked.all u hu]
        rfl
      have hwait : Barrier.Counts (Barrier.step ⟨v'.sync, []⟩ (.wait .dismiss)) := by
        refine hasked.counts.wait ?_
        simp [Barrier.fair, hasked.waiting, hasked.counter, hne]
      simpa [Barrier.step, Sync.wait, hasked.waiting, hreply] using hwait
  · intro seat id hseat
    obtain ⟨u, hu, -, hid⟩ := hasked.sound seat id hseat
    refine ⟨(hel id).2 ⟨u, hu, hid⟩, by rw [hv]; rfl, (hasked.regs seat).2 ?_, ?_⟩
    · rw [Option.isSome_iff_exists]
      exact ⟨id, hseat⟩
    · change seat ∉ v'.reply
      rw [hreply]
      exact List.not_mem_nil
  · intro id hid
    obtain ⟨u, hu, rfl⟩ := (hel id).1 hid
    exact Or.inr ⟨by rw [hv]; rfl, _, hasked.all u hu⟩
  · intro seat seat' id hs hs'
    obtain ⟨u, hu, rfl, hid⟩ := hasked.sound seat id hs
    obtain ⟨u', hu', rfl, hid'⟩ := hasked.sound seat' id hs'
    refine (hdist u (hsub u ((hus u).1 hu)).1 u' (hsub u' ((hus u').1 hu')).1).2 ?_
    rw [hid, hid']
  · change v'.reply.length = _
    rw [hreply, Ballot.agreed, hv]
    simp

/-! ### The invariant -/

/-- **The state of the votes**, by the points of a vote that are left: there is no vote, one that is
about to open, or one that is on. -/
inductive Poll (d : Desk) (b : Ballot) : List Pc → Prop
  | none : Poll d b []
  | opened {v : Vote} : d.dismiss = .vote v → v.sync = {} → v.wait = ∅ → v.reply = [] →
      Poll d b [.voteStart]
  | on {v : Vote} {usern : ℕ} : d.dismiss = .vote v → Polling v b → b.seated.card ≤ usern →
      Poll d b [.vote usern]

/-- **The invariant.** -/
structure PollInv (d : Desk) (l : List Pc) (w : Polls) : Prop where
  poll : Poll d w.ballot (l.filter Pc.voting)
  sound : ∀ p ∈ w.interrupts, p.1.Sound p.2

theorem Poll.perm {l l' : List Pc} (hp : l.Perm l') (h : Poll d b l) : Poll d b l' := by
  cases h with
  | none =>
      rw [List.nil_perm.1 hp]
      exact .none
  | opened hv hs hw hr =>
      rw [← List.singleton_perm.1 hp]
      exact .opened hv hs hw hr
  | on hv hpoll hn =>
      rw [← List.singleton_perm.1 hp]
      exact .on hv hpoll hn

/-- Only `d.dismiss` matters. -/
theorem Poll.same {d' : Desk} {l : List Pc} (hd : d'.dismiss = d.dismiss) (h : Poll d b l) :
    Poll d' b l := by
  cases h with
  | none => exact .none
  | opened hv hs hw hr => exact .opened (hd.trans hv) hs hw hr
  | on hv hpoll hn => exact .on (hd.trans hv) hpoll hn

/-- Without a vote there are no points of one. -/
theorem Poll.eq_nil {l : List Pc} (h : Poll d b l) (hd : ∀ v, d.dismiss ≠ .vote v) : l = [] := by
  cases h with
  | none => rfl
  | opened hv => exact absurd hv (hd _)
  | on hv => exact absurd hv (hd _)

theorem filter_voting {l : List Pc} (h : ∀ pc ∈ l, pc.voting = false) (rest : List Pc) :
    (l ++ rest).filter Pc.voting = rest.filter Pc.voting := by
  have hnil : l.filter Pc.voting = [] := by
    rw [List.filter_eq_nil_iff]
    intro pc hpc
    simp [h pc hpc]
  rw [List.filter_append, hnil, List.nil_append]

/-! ### What keeps it -/

/-- The observer looks at votes only. -/
theorem pollNote_of_not_steers {j : Job} (h : j.steers d = false) : pollNote d j w = w := by
  unfold Job.steers at h
  obtain ⟨hpcs, hcmd⟩ := Bool.or_eq_false_iff.1 h
  unfold pollNote
  split
  · simp [Job.pcs, Pc.voting] at hpcs
  · simp [Job.pcs, Pc.voting] at hpcs
  · split
    · rename_i hc
      rw [hc] at hcmd
      cases hcmd
    · rename_i hc
      rw [hc] at hcmd
      cases hcmd
    · rfl

/-- The observer looks at a command as such. -/
theorem pollNote_apply {j : Job} {u : Ref} (h : j.command d = some (u, .dismissApply)) :
    pollNote d j w =
      if d.opensVote then { w with ballot := { applicant := (d.objs u).id } } else w := by
  unfold pollNote
  split
  · cases h
  · cases h
  · rw [h]

theorem pollNote_reply {j : Job} {u : Ref} {agree : Bool}
    (h : j.command d = some (u, .dismissReply agree)) :
    pollNote d j w = { w with ballot := w.ballot.record (d.objs u).id agree } := by
  unfold pollNote
  split
  · cases h
  · cases h
  · rw [h]

/-- Work that is not about votes. -/
theorem PollInv.aside {d' : Desk} {l l' rest : List Pc} (hd : d'.dismiss = d.dismiss)
    (hl : ∀ pc ∈ l, pc.voting = false) (hl' : ∀ pc ∈ l', pc.voting = false)
    (h : PollInv d (l ++ rest) w) : PollInv d' (l' ++ rest) w := by
  obtain ⟨hpoll, hsound⟩ := h
  rw [filter_voting hl] at hpoll
  refine ⟨?_, hsound⟩
  rw [filter_voting hl']
  exact hpoll.same hd

/-- An application for a dismissal that opens no vote. -/
theorem dismissApply_aside (u : Ref) (h : d.opensVote = false) :
    ((dismissApply d u).d.dismiss = d.dismiss ∨ ∀ v, d.dismiss ≠ .vote v) ∧
      ∀ pc ∈ (dismissApply d u).pcs, pc.voting = false := by
  have hno : dismissesNow d = true → d.dismiss = .no := by
    unfold dismissesNow
    intro hn
    split at hn
    · assumption
    · cases hn
  rcases dismissApply_cases d u with
    ⟨r, hout⟩ | ⟨hd, hst, -⟩ | ⟨hn, -, hout | ⟨-, hout⟩⟩ | ⟨-, hout⟩
  · rw [hout]
    exact ⟨Or.inl rfl, nofun⟩
  · rw [Desk.opensVote, hd] at h
    exact absurd (hst.symm.trans h) (by decide)
  · rw [hout]
    refine ⟨Or.inr fun v hv => ?_, (aside_freeDesk _ _).pcs⟩
    rw [hno hn] at hv
    cases hv
  · rw [hout]
    refine ⟨Or.inr fun v hv => ?_, (aside_startWalk _ _ _).pcs⟩
    rw [hno hn] at hv
    cases hv
  · rw [hout]
    have haside := aside_standup d (d.objs u).id (.dismissApply u)
    exact ⟨Or.inl (congrArg Control.dismiss haside.control), haside.pcs⟩

/-- **Applying for a dismissal.** -/
theorem PollInv.dismissApply {rest : List Pc} (u : Ref) (h : PollInv d rest w) :
    PollInv (dismissApply d u).d ((dismissApply d u).pcs ++ rest)
      (if d.opensVote then { w with ballot := { applicant := (d.objs u).id } } else w) := by
  cases hopen : d.opensVote with
  | false =>
      obtain ⟨hd, hpcs⟩ := dismissApply_aside u hopen
      rcases hd with hd | hd
      · exact PollInv.aside (l := []) hd nofun hpcs h
      · refine ⟨?_, h.sound⟩
        rw [filter_voting hpcs, h.poll.eq_nil hd]
        exact .none
  | true =>
      have hno : d.dismiss = .no ∧ d.started = true := by
        unfold Desk.opensVote at hopen
        split at hopen
        · rename_i hd
          exact ⟨hd, hopen⟩
        · cases hopen
      have hnil : rest.filter Pc.voting = [] := h.poll.eq_nil fun v hv => by
        rw [hno.1] at hv
        cases hv
      have hout : Halieutics.dismissApply d u =
          ⟨{ d with dismiss := .vote { applyer := (d.objs u).seat } }, .ret (.wait 30),
            [.voteStart]⟩ := by
        unfold Halieutics.dismissApply
        rw [hno.1]
        exact if_pos hno.2
      rw [hout]
      refine ⟨?_, h.sound⟩
      rw [Out.pcs, List.cons_append, List.nil_append, List.filter_cons_of_pos rfl, hnil]
      exact .opened rfl rfl rfl rfl

/-- **Answering.** -/
theorem PollInv.dismissReply {rest : List Pc} (u : Ref) (agree : Bool)
    (hk : ∀ v, d.dismiss = .vote v → v.knows (d.objs u)) (h : PollInv d rest w) :
    PollInv (dismissReply d u agree).d ((dismissReply d u agree).pcs ++ rest)
      { w with ballot := w.ballot.record (d.objs u).id agree } := by
  have hpcs : (Halieutics.dismissReply d u agree).pcs = [] := by
    unfold Halieutics.dismissReply
    cases d.dismiss with
    | no | yes => rfl
    | vote v =>
        dsimp only
        split
        · cases agree <;> rfl
        · rfl
  rw [hpcs, List.nil_append]
  refine ⟨?_, h.sound⟩
  obtain ⟨hpoll, -⟩ := h
  generalize rest.filter Pc.voting = l at hpoll
  cases hpoll with
  | none => exact .none
  | opened hv hs hw hr =>
      refine .opened ?_ hs hw hr
      unfold Halieutics.dismissReply
      rw [hv]
      dsimp only
      rw [hw]
      exact hv
  | on hv hpoll hn =>
      rename_i v usern
      have hkv := hk v hv
      rw [← Ballot.record_seated w.ballot (d.objs u).id agree] at hn
      cases hw : v.wait.lookup (d.objs u).seat with
      | none =>
          refine .on ?_ (hpoll.skip hkv hw agree) hn
          unfold Halieutics.dismissReply
          rw [hv]
          dsimp only
          rw [hw]
          exact hv
      | some id =>
          cases agree with
          | true =>
              refine .on ?_ (hpoll.agree hkv hw) hn
              unfold Halieutics.dismissReply
              rw [hv]
              dsimp only
              rw [hw]
              rfl
          | false =>
              refine .on ?_ (hpoll.refuse (d.objs u)) hn
              unfold Halieutics.dismissReply
              rw [hv]
              dsimp only
              rw [hw]
              rfl

/-- **A vote opens.** -/
theorem PollInv.voteStart {rest : List Pc}
    (hc : ∀ v, d.dismiss = .vote v → d.keepsApart v w.ballot.applicant)
    (h : PollInv d (.voteStart :: rest) w) :
    PollInv (voteStart d).d ((voteStart d).pcs ++ rest)
      { w with ballot := { w.ballot with seated := d.seatedIds, votes := ∅ } } := by
  obtain ⟨hpoll, hsound⟩ := h
  refine ⟨?_, hsound⟩
  rw [List.filter_cons_of_pos rfl] at hpoll
  rw [List.filter_append]
  generalize rest.filter Pc.voting = l at hpoll
  cases hpoll with
  | opened hv hs hw hr =>
      rename_i v
      have hcard : d.seatedIds.card ≤ (vals d.users).length := by
        refine (List.toFinset_card_le _).trans ?_
        rw [List.length_map]
      obtain ⟨s, hwait, hopen⟩ := open_voteStart hs hw hr (hc v hv)
        (b := { w.ballot with seated := d.seatedIds, votes := ∅ }) rfl rfl
      unfold Halieutics.voteStart
      rw [hv]
      dsimp only
      split
      · -- an error: nobody waits for the votes
        exact .none
      · have hwait' :
          (((vals d.users).filter fun u => (d.objs u).seat != v.applyer).foldl (fun v u =>
            { v with
              sync := v.sync.add (d.objs u).seat true
              wait := v.wait.insert (d.objs u).seat (d.objs u).id }) v).sync.wait .dismiss =
                some s := hwait
        rw [hwait']
        exact .on rfl (.goesOn hopen) hcard

/-- **A vote ends.** -/
theorem PollInv.voteEnd {rest : List Pc} {usern : ℕ}
    (hc : ∀ v, d.dismiss = .vote v → v.counts w.ballot usern)
    (h : PollInv d (.vote usern :: rest) w) :
    PollInv (voteEnd d usern).d ((voteEnd d usern).pcs ++ rest)
    (pollNote d (.seg (.vote usern)) w) := by
  obtain ⟨hpoll, hsound⟩ := h
  rw [List.filter_cons_of_pos rfl] at hpoll
  have hpcs : (Halieutics.voteEnd d usern).pcs = [] := by
    unfold Halieutics.voteEnd
    split <;> rfl
  rw [hpcs, List.nil_append]
  generalize hl : rest.filter Pc.voting = l at hpoll
  cases hpoll with
  | on hv hpoll hn =>
      rename_i v
      have hpasses : d.passes usern = v.passes usern := by
        rw [Desk.passes, hv]
      dsimp only [pollNote]
      rw [hpasses]
      have hsound' : ∀ err, v.passes usern = some err → w.ballot.Sound err := by
        intro err herr
        unfold Vote.passes at herr
        cases hpoll with
        | agreed hd _ hall =>
            rw [hd] at herr
            obtain rfl := Option.some_inj.1 herr
            refine ⟨fun _ => hall, nofun, fun id hid => ?_⟩
            rw [hall id hid]
            decide
        | refused hd =>
            rw [hd] at herr
            cases herr
        | goesOn hopen =>
            rw [hopen.driver] at herr
            dsimp only at herr
            split at herr
            · rename_i hlt
              obtain rfl := Option.some_inj.1 herr
              refine ⟨nofun, fun _ => ?_, fun id hid => ?_⟩
              · have hcount := hc v hv (by
                  rw [Vote.passes, hopen.driver]
                  exact if_pos hlt)
                rcases hcount with hseat | hmost
                · have := Ballot.card_agreed_lt hseat
                  have := hopen.reply
                  omega
                · have := Ballot.card_agreed_le w.ballot
                  have := hopen.reply
                  omega
              · rcases hopen.voters id hid with hyes | ⟨hnone, -⟩
                · rw [hyes]
                  decide
                · rw [hnone]
                  decide
            · cases herr
      split
      · rename_i err herr
        refine ⟨?_, List.forall_mem_cons.2 ⟨hsound' err herr, hsound⟩⟩
        rw [hl]
        exact .none
      · refine ⟨?_, hsound⟩
        rw [hl]
        exact .none

/-- **One piece of work.** -/
theorem PollInv.job {j : Job} {rest : List Pc} (inp : Inp) (hc : KeepsVote d w j)
    (h : PollInv d (j.pcs ++ rest) w) :
    PollInv (j.out d inp).d ((j.out d inp).pcs ++ rest) (pollNote d j w) := by
  cases hs : j.steers d with
  | false =>
      have haside := aside_job d inp hs
      rw [pollNote_of_not_steers hs]
      refine h.aside (congrArg Control.dismiss haside.control) ?_ haside.pcs
      intro pc hpc
      unfold Job.steers at hs
      have hany := List.any_eq_false.1 (Bool.or_eq_false_iff.1 hs).1 pc hpc
      exact (Bool.or_eq_false_iff.1 (by simpa using hany)).1
  | true =>
      rcases steers_cases hs with rfl | ⟨usern, rfl⟩ | ⟨pc, hpc, rfl⟩ | ⟨u, c, hcmd, happly⟩
      · refine PollInv.voteStart (fun v hv => ?_) h
        change d.dismiss = .vote v at hv
        unfold KeepsVote at hc
        rw [hv] at hc
        exact hc
      · refine PollInv.voteEnd (fun v hv => ?_) h
        change d.dismiss = .vote v at hv
        unfold KeepsVote at hc
        rw [hv] at hc
        exact hc
      · obtain ⟨hd, -, hpcs⟩ := keepsVotes_newDesk (executed d inp pc) inp hpc
        have hnote : pollNote d (.seg pc) w = w := by
          cases pc <;> first | rfl | cases hpc
        have hdis : (executed d inp pc).dismiss = d.dismiss :=
          congrArg Control.dismiss (control_executed d inp pc)
        rw [hnote]
        refine h.aside (hd.trans hdis) ?_ hpcs
        refine List.forall_mem_singleton.2 ?_
        cases pc <;> first | rfl | cases hpc
      · rw [out_of_command inp hcmd]
        have hrest : PollInv d ([] ++ rest) w := h.aside rfl (voting_of_command hcmd) nofun
        rcases happly with rfl | ⟨agree, rfl⟩
        · rw [pollNote_apply hcmd]
          exact hrest.dismissApply u
        · rw [pollNote_reply hcmd]
          refine hrest.dismissReply u agree fun v hv => ?_
          unfold KeepsVote at hc
          rw [hv] at hc
          cases j with
          | seg pc =>
              cases pc with
              | begin u' c' =>
                  dsimp only at hc
                  rw [hcmd] at hc
                  exact hc
              | _ => cases hcmd
          | cmd u' c' =>
              dsimp only at hc
              rw [hcmd] at hc
              exact hc
          | req r =>
              dsimp only at hc
              rw [hcmd] at hc
              exact hc

/-- **A vote interrupts a game only as the players may expect**, in every run that meets the
condition. -/
theorem sound_of_keepsVote (id creater : ℕ) (pay : Pay) (timelimit : ℕ) {s : Sys}
    (h : desk.Seen (noted pollNote) VoteKept (created id creater pay timelimit) {} s w) :
    ∀ p ∈ w.interrupts, p.1.Sound p.2 := by
  refine (seen_inv (I := PollInv) ?_ ?_ ?_ ⟨.none, List.forall_mem_nil _⟩ ?_ h).sound
  · intro d l l' w hp hI
    exact ⟨hI.poll.perm (hp.filter _), hI.sound⟩
  · intro d l b q w hI
    exact ⟨hI.poll.same (by rfl), hI.sound⟩
  · intro d l u c w hI
    exact ⟨hI.poll, hI.sound⟩
  · intro s w e j inp rest hC hj _ hI
    refine hI.job inp ?_
    unfold VoteKept Under at hC
    rw [hj] at hC
    exact hC

/-- User 2 applies during the game, and the creator agrees. -/
theorem sound_votePassed :
    ∃ s w, desk.Seen (noted pollNote) VoteKept (created 100001 1 ⟨true, 3⟩ 30) {} s w ∧
      w.interrupts.map Prod.snd = [.dismissbyuser] ∧ ∀ p ∈ w.interrupts, p.1.Sound p.2 := by
  obtain ⟨s, w, hs, hp⟩ := Machine.exists_seen (M := desk) (noted pollNote) VoteKept
    (created 100001 1 ⟨true, 3⟩ 30) {}
    (gameOn ++ [.call (.client 2 .dismissApply) {}, .resume 1 {},
      .call (.client 1 (.dismissReply true)) {}, .resume 1 {}])
    (p := fun q => decide (q.2.interrupts.map Prod.snd = [.dismissbyuser])) (by decide +kernel)
  exact ⟨s, w, hs, of_decide_eq_true hp, sound_of_keepsVote _ _ _ _ hs⟩

/-- **An applicant who only watches tips the scales**: two are seated, one of them agrees, and time
runs out. -/
theorem audience_tips_the_scales :
    ¬ ∀ (id creater timelimit : ℕ) (pay : Pay) (s : Sys) (w : Polls),
      desk.Seen (noted pollNote) (fun s _ e => Always s e)
      (created id creater pay timelimit) {} s w →
        ∀ p ∈ w.interrupts, p.1.Sound p.2 := by
  intro hall
  obtain ⟨s, w, hs, hp⟩ :=
    Machine.exists_seen (M := desk) (noted pollNote) (fun s _ e => Always s e)
    (created 100001 1 ⟨true, 3⟩ 30) {}
    (gameOn ++ [.call (.join 3 false) {}, .resume 1 {}, .resume 1 {},
      .call (.client 3 .dismissApply) {}, .resume 1 {},
      .call (.client 1 (.dismissReply true)) {}, .resume 1 { timeout := true }])
    (p := fun q => decide (∃ p ∈ q.2.interrupts, p.2 = .dismissbytimeout ∧
      p.1.seated.card = 2 ∧ p.1.inFavour.card = 1)) (by decide +kernel)
  obtain ⟨p, hmem, herr, hseated, hfavour⟩ := of_decide_eq_true hp
  have hmost := (hall _ _ _ _ s w hs p hmem).most herr
  omega

end Halieutics
