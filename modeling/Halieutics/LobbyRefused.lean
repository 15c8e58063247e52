/-
**Requests for a desk that the lobby refuses.**

`assign_desk` takes a number out of the buffer before it looks for the price of the desk, and before
it starts a service for it.  If it ends without a desk after that, nobody has the number, and nobody
puts it back.

Main definitions:

* `Create`, `Create.run` — a request, and `lobby.assign` run to its end;
* `Loses` — the request has a number taken out of the buffer and ends without a desk;
* `RefusalsKeep` — **a sequence of refused requests leaves the numbers and the desks as they are**.

Main results:

* `kept_run_iff` — **a refused request leaves the tables as they are exactly if it does not lose a
  number**;
* `refusalsKeep_iff` — and so do sequences of requests;
* `refusals_exhaust_buffer` — requests without a price use up the buffer.
-/

import Halieutics.Lobby

set_option relaxedAutoImplicit false
set_option autoImplicit false

namespace Halieutics.Lobby

open LuaTable

/-- A request of a user, and what the world supplies to the segments before and after
`skynet.newservice`. -/
structure Create where
  userid : ℕ
  info : Info
  inp : Inp := {}
  inp' : Inp := {}

/-- **`lobby.assign`, run to its end.** -/
def Create.run (q : Create) (d : Data) : Out :=
  match assign d q.userid q.info q.inp with
  | .ret d r => .ret d r
  | .wait d pc => resume d q.inp' pc

/-- The call ends without a desk. -/
def Out.refused : Out → Bool
  | .ret _ (.desk _ _) => false
  | .ret _ .nil | .ret _ (.raise _) => true
  | .wait _ _ => false

/-- The buffer has the same numbers, and the desks and their homes are the same. -/
structure Data.Kept (d d' : Data) : Prop where
  buffer : d'.buffer.Perm d.buffer
  deskmap : ∀ id, d'.deskmap.lookup id = d.deskmap.lookup id
  actives : ∀ h, (d'.homes h).actives = (d.homes h).actives

/-- **A number is taken and lost**: the game is known and there are numbers, but there is no price,
or no service has room and a new one cannot be started. -/
def Loses (d : Data) (q : Create) : Prop :=
  ∃ desks, d.games.lookup q.info.game = some desks ∧ d.buffer ≠ [] ∧
    (getpay d q.info = none ∨
      (desks.find? fun h => (d.homes h).actives.length < d.load) = none ∧ q.inp'.raised = true)

/-- The tables after a sequence of requests. -/
def runAll (d : Data) : List Create → Data
  | [] => d
  | q :: qs => runAll (q.run d).d qs

/-- All of the requests are refused. -/
def AllRefused (d : Data) : List Create → Prop
  | [] => True
  | q :: qs => (q.run d).refused = true ∧ AllRefused (q.run d).d qs

/-- Each request that is refused leaves the tables as they are. -/
def EachKeeps (d : Data) : List Create → Prop
  | [] => True
  | q :: qs => ((q.run d).refused = true → d.Kept (q.run d).d) ∧ EachKeeps (q.run d).d qs

/-- **Refused requests keep the numbers and the desks**: each one does, and so does a sequence of
them. -/
structure RefusalsKeep (d : Data) (qs : List Create) : Prop where
  each : EachKeeps d qs
  all : AllRefused d qs → d.Kept (runAll d qs)

/-- **The condition**: none of the requests loses a number. -/
def NoneLoses (d : Data) : List Create → Prop
  | [] => True
  | q :: qs => ¬ Loses d q ∧ NoneLoses (q.run d).d qs

variable {d d' d'' : Data} {q : Create} {qs : List Create}

theorem Data.Kept.refl (d : Data) : d.Kept d := ⟨List.Perm.refl _, fun _ => rfl, fun _ => rfl⟩

theorem Data.Kept.trans (h : d.Kept d') (h' : d'.Kept d'') : d.Kept d'' where
  buffer := h'.buffer.trans h.buffer
  deskmap := fun id => (h'.deskmap id).trans (h.deskmap id)
  actives := fun r => (h'.actives r).trans (h.actives r)

theorem randomId_isSome {buffer : List ℕ} (h : buffer ≠ []) (roll : ℕ) :
    ∃ id rest, randomId buffer roll = some (id, rest) := by
  have hlt : roll % buffer.length < buffer.length := Nat.mod_lt _ (List.length_pos_iff.2 h)
  unfold randomId
  rw [List.getElem?_eq_getElem hlt, List.getLast?_eq_some_getLast h]
  exact ⟨_, _, rfl⟩

/-- **The ends of `lobby.assign`**: it has a desk; it is refused and nothing has changed; or it is
refused and a number has left the buffer. -/
theorem run_cases (q : Create) (d : Data) :
    ((q.run d).refused = false ∧ ¬ Loses d q) ∨
    ((q.run d).refused = true ∧ (q.run d).d = d ∧ ¬ Loses d q) ∨
    ((q.run d).refused = true ∧ Loses d q ∧
      ∃ id, d.buffer.Perm (id :: (q.run d).d.buffer)) := by
  unfold Create.run assign
  cases hg : d.games.lookup q.info.game with
  | none =>
      refine Or.inr (Or.inl ⟨rfl, rfl, fun ⟨desks, hdesks, _⟩ => ?_⟩)
      rw [hg] at hdesks
      cases hdesks
  | some desks =>
      dsimp only
      by_cases hb : d.buffer = []
      · have hnone : randomId d.buffer q.inp.roll = none := by rw [hb]; rfl
        rw [hnone]
        exact Or.inr (Or.inl ⟨rfl, rfl, fun ⟨_, _, hne, _⟩ => hne hb⟩)
      · obtain ⟨id, rest, hroll⟩ := randomId_isSome hb q.inp.roll
        have hperm := randomId_perm hroll
        have hpay' : getpay { d with buffer := rest } q.info = getpay d q.info := rfl
        rw [hroll]
        dsimp only
        rw [hpay']
        cases hpay : getpay d q.info with
        | none => exact Or.inr (Or.inr ⟨rfl, ⟨desks, hg, hb, Or.inl hpay⟩, id, hperm⟩)
        | some pay =>
            dsimp only
            cases hf : desks.find? fun h => (d.homes h).actives.length < d.load with
            | some h =>
                refine Or.inl ⟨rfl, fun ⟨desks', hdesks, _, hno⟩ => ?_⟩
                obtain rfl := Option.some_inj.1 (hg.symm.trans hdesks)
                rcases hno with hno | ⟨hno, _⟩
                · exact absurd (hpay.symm.trans hno) (by simp)
                · exact absurd (hf.symm.trans hno) (by simp)
            | none =>
                dsimp only
                unfold resume
                by_cases hr : q.inp'.raised = true
                · rw [if_pos hr]
                  exact Or.inr (Or.inr ⟨rfl, ⟨desks, hg, hb, Or.inr ⟨hf, hr⟩⟩, id, hperm⟩)
                · rw [if_neg hr]
                  refine Or.inl ⟨rfl, fun ⟨_, _, _, hno⟩ => ?_⟩
                  rcases hno with hno | ⟨_, hno⟩
                  · exact absurd (hpay.symm.trans hno) (by simp)
                  · exact hr hno

/-- **A refused request leaves the tables as they are exactly if it does not lose a number.** -/
theorem kept_run_iff (q : Create) (d : Data) :
    ((q.run d).refused = true → d.Kept (q.run d).d) ↔ ¬ Loses d q := by
  rcases run_cases q d with ⟨href, hno⟩ | ⟨_, heq, hno⟩ | ⟨href, hloses, id, hperm⟩
  · exact ⟨fun _ => hno, fun _ h => absurd (href.symm.trans h) (by simp)⟩
  · exact ⟨fun _ => hno, fun _ _ => heq.symm ▸ .refl d⟩
  · refine ⟨fun h => ?_, fun hno => absurd hloses hno⟩
    -- the buffer is shorter by one number
    have hlen := (h href).buffer.length_eq
    rw [hperm.length_eq, List.length_cons] at hlen
    omega

/-- What each request keeps, a sequence of refused ones keeps. -/
theorem kept_runAll (h : EachKeeps d qs) (href : AllRefused d qs) : d.Kept (runAll d qs) := by
  induction qs generalizing d with
  | nil => exact .refl d
  | cons q qs ih => exact (h.1 href.1).trans (ih h.2 href.2)

theorem eachKeeps_iff : EachKeeps d qs ↔ NoneLoses d qs := by
  induction qs generalizing d with
  | nil => exact Iff.rfl
  | cons q qs ih => exact and_congr (kept_run_iff q d) ih

/-- **Refused requests keep the numbers and the desks exactly if none of the requests loses a
number.** -/
theorem refusalsKeep_iff (d : Data) (qs : List Create) : RefusalsKeep d qs ↔ NoneLoses d qs :=
  ⟨fun h => eachKeeps_iff.1 h.each, fun h =>
    ⟨eachKeeps_iff.2 h, kept_runAll (eachKeeps_iff.2 h)⟩⟩

/-- Three numbers, and a user who asks three times for a desk whose time limit has no price: no
number is left. -/
theorem refusals_exhaust_buffer :
    let d : Data := {
      load := 5, games := AList.insert "fish" [] ∅, buffer := [100001, 100002, 100003] }
    let q : Create := ⟨1, { game := "fish", timelimit := 7 }, {}, {}⟩
    ¬ RefusalsKeep d [q, q, q] ∧ (runAll d [q, q, q]).buffer = [] := by
  refine ⟨fun h => ?_, by decide⟩
  exact ((refusalsKeep_iff _ _).1 h).1 ⟨[], by decide, by decide, Or.inl (by decide)⟩

end Halieutics.Lobby
