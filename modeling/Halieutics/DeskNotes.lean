/-
**A desk whose coroutines carry notes.**

A statement about a whole request of a client speaks of the request, and of the desk as it was when
the request began.  The coroutine that serves it carries these as its note.

Main definitions:

* `Halieutics.noting` — **the desk with notes**;
* `Halieutics.notes` — the points at which its coroutines are suspended, with their notes.

Main results:

* `Halieutics.noting_inv` — **the invariant rule for notes**: an invariant has only to be kept by
  every piece of work.
-/

import Halieutics.Carry
import Halieutics.DeskMachine

set_option relaxedAutoImplicit false
set_option autoImplicit false

namespace Halieutics

open LuaTable Coroutine

variable {γ : Type}

/-- The work that a request does at once. -/
def firstJob (d : Desk) : Req → Option Job
  | .client uid c => if d.csBusy then none else (admits d uid).map fun u => .cmd u c
  | r => some (.req r)

/-- **The desk with notes**: a piece of work turns the note of its coroutine, which is `t₀` for a
request, into the note of the coroutines that it leaves behind. -/
def noting (note : Desk → Inp → Job → γ → γ) (t₀ : γ) : Machine Desk (Co × γ) Req Inp :=
  desk.carry (fun d r inp => ((firstJob d r).map fun j => note d inp j t₀).getD t₀)
    fun d co inp t => note d inp (.seg co.pc) t

/-- The points at which the coroutines are suspended, with their notes. -/
def notes (s : Pool Desk (Co × γ)) : List (Pc × γ) := s.cos.map fun p => (p.1.pc, p.2)

theorem notes_fst (s : Pool Desk (Co × γ)) : (notes s).map Prod.fst = pcs s.bare := by
  simp only [notes, pcs, Pool.bare, List.map_map]
  rfl

/-- What a segment leaves suspended, with its note. -/
theorem noted_settle (cs : Bool) (o : Out) (t : γ) : ∃ b q l,
    (settle cs o).1 = { o.d with csBusy := b, csQueue := q } ∧
    ((settle cs o).2.map fun co => (co.pc, t)).Perm
      (l.map (fun pc => (pc, t)) ++ o.pcs.map fun pc => (pc, t)) ∧ HandedOn o.d.csQueue q l := by
  obtain ⟨b, q, l, hd, hp, hl⟩ := settle_spec cs o
  refine ⟨b, q, l, hd, ?_, hl⟩
  have hmap := hp.map fun pc => (pc, t)
  rw [List.map_map, List.map_append] at hmap
  exact hmap

/-- **The invariant rule for notes.** -/
theorem noting_inv {note : Desk → Inp → Job → γ → γ} {t₀ : γ}
    {C : Pool Desk (Co × γ) → Ev → Prop} {I : Desk → List (Pc × γ) → Prop}
    {s₀ s : Pool Desk (Co × γ)}
    (hperm : ∀ d l l', l.Perm l' → I d l → I d l')
    (hcs : ∀ d l b q, I d l → I { d with csBusy := b, csQueue := q } l)
    (hbegin : ∀ d l u c t, I d l → I d ((.begin u c, t) :: l))
    (h₀ : I s₀.shared (notes s₀))
    (hjob : ∀ s e j inp t rest, C s e → jobOf s.bare e = some (j, inp) →
      (notes s).Perm (j.pcs.map (fun pc => (pc, t)) ++ rest) →
      I s.shared (j.pcs.map (fun pc => (pc, t)) ++ rest) →
      I (j.out s.shared inp).d
        ((j.out s.shared inp).pcs.map (fun pc => (pc, note s.shared inp j t)) ++ rest))
    (h : (noting note t₀).Reach C s₀ s) : I s.shared (notes s) := by
  refine Machine.Reach.inv (P := fun s => I s.shared (notes s)) h₀ ?_ h
  -- what is left of a piece of work when `d.cs` has been handed on
  have ends : ∀ (cs : Bool) {s : Pool Desk (Co × γ)} {e : Ev} {j : Job} {inp : Inp} {t : γ}
      {l r : List (Co × γ)}, C s e → jobOf s.bare e = some (j, inp) →
      (notes s).Perm (j.pcs.map (fun pc => (pc, t)) ++
        (l ++ r).map fun p => (p.1.pc, p.2)) → I s.shared (notes s) →
      I (settle cs (j.out s.shared inp)).1 ((l ++ ((settle cs (j.out s.shared inp)).2.map
        fun co => (co, note s.shared inp j t)) ++ r).map fun p => (p.1.pc, p.2)) := by
    intro cs s e j inp t l r hC hj hp hI
    obtain ⟨b, q, m, hd, hp', hm⟩ := noted_settle cs (j.out s.shared inp) (note s.shared inp j t)
    have hI' := hcs _ _ b q (hjob s e j inp t _ hC hj hp (hperm _ _ _ hp hI))
    have hout : I { (j.out s.shared inp).d with csBusy := b, csQueue := q }
        (m.map (fun pc => (pc, note s.shared inp j t)) ++
          ((j.out s.shared inp).pcs.map (fun pc => (pc, note s.shared inp j t)) ++
            (l ++ r).map fun p => (p.1.pc, p.2))) := by
      rcases hm with ⟨rfl, -⟩ | ⟨u, c, -, rfl⟩
      · exact hI'
      · exact hbegin _ _ u c _ hI'
    rw [hd]
    refine hperm _ _ _ (List.Perm.symm ?_) hout
    rw [← List.append_assoc, List.map_append, List.map_append, List.map_append, List.map_map]
    refine ((List.Perm.append_left _ hp').append_right _).trans ?_
    rw [List.append_assoc]
    exact List.perm_append_comm_assoc _ _ _
  intro s e s' hI hC he
  rcases Machine.exec_cases he with
    ⟨r, inp, rfl, rfl⟩ | ⟨k, inp, l, p, r, out, rfl, hk, hs, ho, rfl⟩
  · have first : ∀ (cs : Bool) {j : Job}, j.pcs = [] → jobOf s.bare (.call r inp) = some (j, inp) →
        firstJob s.shared r = some j → desk.call s.shared r inp = settle cs (j.out s.shared inp) →
        I ((noting note t₀).call s.shared r inp).1
          ((s.cos ++ ((noting note t₀).call s.shared r inp).2).map fun p => (p.1.pc, p.2)) := by
      intro cs j hnil hj hfirst hcall
      have hend := ends cs (t := t₀) (l := s.cos) (r := []) hC hj
        (by rw [hnil, List.append_nil]; exact List.Perm.refl _) hI
      rw [List.append_nil] at hend
      simp only [noting, Machine.carry, hfirst, hcall, Option.map_some, Option.getD_some]
      exact hend
    by_cases hr : ∃ uid c, r = .client uid c
    · obtain ⟨uid, c, rfl⟩ := hr
      cases ha : admits s.shared uid with
      | none =>
          have hcall : desk.call s.shared (.client uid c) inp = (s.shared, []) := by
            simp [desk, deskCall, ha]
          simp only [noting, Machine.carry, notes, hcall, List.map_nil, List.append_nil]
          exact hI
      | some u =>
          by_cases hb : s.shared.csBusy = true
          · have hcall : desk.call s.shared (.client uid c) inp
                = ({ s.shared with csQueue := s.shared.csQueue ++ [(u, c)] }, []) := by
              simp [desk, deskCall, ha, hb]
            simp only [noting, Machine.carry, notes, hcall, List.map_nil, List.append_nil]
            exact hcs s.shared _ s.shared.csBusy _ hI
          · refine first true (j := .cmd u c) rfl ?_ ?_ ?_
            · simp [jobOf, ha, hb]
            · simp [firstJob, ha, hb]
            · simp [desk, deskCall, ha, hb]
    · refine first false (j := .req r) rfl ?_ ?_ ?_
      · cases r <;> first | rfl | exact absurd ⟨_, _, rfl⟩ hr
      · cases r <;> first | rfl | exact absurd ⟨_, _, rfl⟩ hr
      · cases r <;> first | rfl | exact absurd ⟨_, _, rfl⟩ hr
  · obtain ⟨co, t⟩ := p
    obtain ⟨left, hleft, rfl⟩ := Option.map_eq_some_iff.1 ho
    have hen : co.pc.enabled s.shared inp = true := by
      by_contra hne
      simp [desk, deskResume, hne] at hleft
    have hsettle : left = settle co.cs (Job.out s.shared inp (.seg co.pc)) := by
      simpa [desk, deskResume, hen] using hleft.symm
    subst hsettle
    refine ends co.cs (t := t) hC ?_ ?_ hI
    · simp [jobOf, Pool.bare, hk]
    · rw [notes, hs, List.map_append, List.map_cons, List.map_append]
      exact List.perm_middle

end Halieutics
