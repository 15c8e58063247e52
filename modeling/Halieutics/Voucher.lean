/-
**Vouchers.**

Somebody pays for a voucher, which carries a fresh number and says what was paid for; later the
voucher is redeemed, and until then it is outstanding.  Vouchers may also lapse.  This module says
what an honest history of issuing and redeeming is, and which invariant of the outstanding vouchers
keeps it honest.

Main definitions:

* `Voucher.Entry`, `Voucher.Honest` — an entry of a history, and an honest history: every redeemed
  voucher was issued before, for the same thing, and no voucher is issued or redeemed twice;
* `Voucher.Inv` — the outstanding vouchers agree with the history.

Main results:

* `Voucher.Inv.issue`, `Voucher.Inv.redeem`, `Voucher.Inv.lapse` — **the invariant along a
  history**.
-/

import Mathlib

set_option relaxedAutoImplicit false
set_option autoImplicit false

namespace Voucher

variable {δ : Type}

/-- An entry of a history; `x` is what the voucher is for. -/
inductive Entry (δ : Type) where
  | issued (id : ℕ) (x : δ)
  | redeemed (id : ℕ) (x : δ)
  deriving DecidableEq

/-- The number of a voucher that was issued. -/
def Entry.issuedId : Entry δ → Option ℕ
  | .issued id _ => some id
  | .redeemed _ _ => none

/-- The number of a voucher that was redeemed. -/
def Entry.redeemedId : Entry δ → Option ℕ
  | .issued _ _ => none
  | .redeemed id _ => some id

/-- The numbers issued in a history. -/
def issuedIds (hist : List (Entry δ)) : List ℕ := hist.filterMap Entry.issuedId

/-- The numbers redeemed in a history. -/
def redeemedIds (hist : List (Entry δ)) : List ℕ := hist.filterMap Entry.redeemedId

/-- **An honest history**, newest first: no number is issued twice, and a voucher is redeemed at
most once, after it was issued for the same thing. -/
def Honest : List (Entry δ) → Prop
  | [] => True
  | .issued id _ :: hist => id ∉ issuedIds hist ∧ Honest hist
  | .redeemed id x :: hist => .issued id x ∈ hist ∧ id ∉ redeemedIds hist ∧ Honest hist

instance [DecidableEq δ] : ∀ hist : List (Entry δ), Decidable (Honest hist)
  | [] => isTrue trivial
  | .issued id _ :: hist =>
      have := instDecidableHonestOfDecidableEq hist
      inferInstanceAs (Decidable (id ∉ issuedIds hist ∧ Honest hist))
  | .redeemed id x :: hist =>
      have := instDecidableHonestOfDecidableEq hist
      inferInstanceAs (Decidable (.issued id x ∈ hist ∧ id ∉ redeemedIds hist ∧ Honest hist))

theorem mem_issuedIds {hist : List (Entry δ)} {id : ℕ} {x : δ} (h : .issued id x ∈ hist) :
    id ∈ issuedIds hist :=
  List.mem_filterMap.2 ⟨_, h, rfl⟩

/-- What was redeemed was issued. -/
theorem redeemed_issued {hist : List (Entry δ)} (h : Honest hist) {id : ℕ}
    (hid : id ∈ redeemedIds hist) : id ∈ issuedIds hist := by
  induction hist with
  | nil => exact absurd hid List.not_mem_nil
  | cons e hist ih =>
      cases e with
      | issued n x => exact List.mem_cons_of_mem _ (ih h.2 hid)
      | redeemed n x =>
          rcases List.mem_cons.1 (show id ∈ n :: redeemedIds hist from hid) with rfl | hid
          · exact mem_issuedIds (List.mem_cons_of_mem _ h.1)
          · exact ih h.2.2 hid

/-- **The outstanding vouchers agree with the history**; numbers up to `gen` have been given out. -/
structure Inv (gen : ℕ) (out : List (ℕ × δ)) (hist : List (Entry δ)) : Prop where
  honest : Honest hist
  once : (out.map Prod.fst).Nodup
  issued : ∀ p ∈ out, .issued p.1 p.2 ∈ hist
  fresh : ∀ p ∈ out, p.1 ∉ redeemedIds hist
  known : ∀ id ∈ issuedIds hist, id ≤ gen

namespace Inv

variable {gen : ℕ} {out out' : List (ℕ × δ)} {hist : List (Entry δ)}

theorem empty (gen : ℕ) : Inv gen ([] : List (ℕ × δ)) [] :=
  ⟨trivial, by simp, by simp, by simp, by simp [issuedIds]⟩

/-- Outstanding vouchers may lapse. -/
theorem lapse (hout : out'.Subperm out) (h : Inv gen out hist) : Inv gen out' hist := by
  obtain ⟨l, hperm, hsub⟩ := hout
  have hmem : ∀ p ∈ out', p ∈ out := fun p hp => hsub.subset (hperm.mem_iff.2 hp)
  refine ⟨h.honest, ?_, fun p hp => h.issued p (hmem p hp), fun p hp => h.fresh p (hmem p hp),
    h.known⟩
  exact (hperm.map Prod.fst).nodup_iff.1 ((hsub.map Prod.fst).nodup h.once)

/-- **A new voucher** gets the next number. -/
theorem issue {x : δ} (hout : out'.Perm ((gen + 1, x) :: out)) (h : Inv gen out hist) :
    Inv (gen + 1) out' (.issued (gen + 1) x :: hist) := by
  have hnew : gen + 1 ∉ issuedIds hist := fun hm => by
    have := h.known _ hm
    omega
  have hred : redeemedIds (.issued (gen + 1) x :: hist) = redeemedIds hist := rfl
  have hsplit : ∀ p ∈ out', p = (gen + 1, x) ∨ p ∈ out := fun p hp =>
    List.mem_cons.1 (hout.mem_iff.1 hp)
  refine ⟨⟨hnew, h.honest⟩, ?_, ?_, ?_, ?_⟩
  · rw [(hout.map Prod.fst).nodup_iff, List.map_cons, List.nodup_cons]
    refine ⟨fun hm => ?_, h.once⟩
    obtain ⟨⟨id, y⟩, hp, rfl⟩ := List.mem_map.1 hm
    exact hnew (mem_issuedIds (h.issued _ hp))
  · intro p hp
    rcases hsplit p hp with rfl | hp
    · exact List.mem_cons_self
    · exact List.mem_cons_of_mem _ (h.issued p hp)
  · intro p hp
    rw [hred]
    rcases hsplit p hp with rfl | hp
    · intro hm
      exact hnew (redeemed_issued h.honest hm)
    · exact h.fresh p hp
  · intro id hid
    rcases List.mem_cons.1 (show id ∈ (gen + 1) :: issuedIds hist from hid) with rfl | hid
    · exact Nat.le_refl _
    · exact Nat.le_succ_of_le (h.known id hid)

/-- **An outstanding voucher is redeemed.** -/
theorem redeem {id : ℕ} {x : δ} (hout : out.Perm ((id, x) :: out')) (h : Inv gen out hist) :
    Inv gen out' (.redeemed id x :: hist) := by
  have hmem : (id, x) ∈ out := hout.mem_iff.2 List.mem_cons_self
  have hsub : ∀ p ∈ out', p ∈ out := fun p hp => hout.mem_iff.2 (List.mem_cons_of_mem _ hp)
  have honce := (hout.map Prod.fst).nodup_iff.1 h.once
  rw [List.map_cons, List.nodup_cons] at honce
  refine ⟨⟨h.issued _ hmem, h.fresh _ hmem, h.honest⟩, honce.2, ?_, ?_, h.known⟩
  · exact fun p hp => List.mem_cons_of_mem _ (h.issued p (hsub p hp))
  · intro p hp hm
    rcases List.mem_cons.1 (show p.1 ∈ id :: redeemedIds hist from hm) with hid | hm
    · exact honce.1 (List.mem_map.2 ⟨p, hp, hid⟩)
    · exact h.fresh p (hsub p hp) hm

end Inv

end Voucher
