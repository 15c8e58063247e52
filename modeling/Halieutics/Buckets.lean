/-
**A hash spread over buckets.**

A large hash is kept in several smaller ones, the buckets `key 1`, `key 2`, ….  A field is looked up
in one bucket after the other, until there is no further bucket; a new field goes into the first
bucket that has room.  Nobody keeps the number of buckets, so the lookup depends on there being no
gap.

Main definitions:

* `Redis.Buckets.find`, `Redis.Buckets.put` — the two walks; the first number bounds the rounds;
* `Redis.Buckets.Holds` — some bucket has the field;
* `Redis.Buckets.Chained` — the buckets have no gap, and there are finitely many;
* `Redis.Buckets.Spread` — several such hashes, whose buckets have names of their own, have these
  rows.

Main results:

* `Redis.Buckets.find_some`, `Redis.Buckets.find_none` — **a lookup finds what some bucket has**;
* `Redis.Buckets.Chained.put`, `Redis.Buckets.holds_put` — **what a new field changes**;
* `Redis.Buckets.Chained.find_returns`, `Redis.Buckets.Chained.put_returns` — both walks come to an
  end;
* `Redis.Buckets.Spread.put` — **a new field is one row more**;
* `Redis.Buckets.Spread.find_of_mem`, `Redis.Buckets.Spread.find_of_notMem` — **a lookup finds the
  only row of its field**, and nothing where there is no row.
-/

import Halieutics.Redis

set_option relaxedAutoImplicit false
set_option autoImplicit false

namespace Redis.Buckets

variable (r : Store) (key : ℕ → String)

/-- Looking a field up, from bucket `i` on. -/
def find (field : String) : ℕ → ℕ → Option (Option String)
  | 0, _ => none
  | rounds + 1, i =>
      if r.hashExists (key i) then
        match r.hget (key i) field with
        | some v => some (some v)
        | none => find field rounds (i + 1)
      else some none

/-- Writing a field into the first bucket from `i` on that has fewer than `size` fields. -/
def put (size : ℕ) (field v : String) : ℕ → ℕ → Option Store
  | 0, _ => none
  | rounds + 1, i =>
      if r.hlen (key i) < size then some (r.hset (key i) field v)
      else put size field v rounds (i + 1)

/-- Some bucket has the field with this value. -/
def Holds (field v : String) : Prop := ∃ i, 1 ≤ i ∧ r.hget (key i) field = some v

/-- **The buckets have no gap, and there are finitely many.** -/
structure Chained : Prop where
  chain : ∀ i, 1 ≤ i → r.hashExists (key (i + 1)) = true → r.hashExists (key i) = true
  ends : ∃ m, ∀ i, m < i → r.hashExists (key i) = false

variable {r key}

/-! ### The lookup -/

/-- **What a lookup finds, some bucket has.** -/
theorem find_some {field v : String} {n i : ℕ} (hi : 1 ≤ i)
    (h : find r key field n i = some (some v)) : Holds r key field v := by
  induction n generalizing i with
  | zero => simp [find] at h
  | succ n ih =>
      rw [find] at h
      split at h
      · cases hg : r.hget (key i) field with
        | some w =>
            rw [hg] at h
            obtain rfl : w = v := by simpa using h
            exact ⟨i, hi, hg⟩
        | none =>
            rw [hg] at h
            exact ih (Nat.le_succ_of_le hi) h
      · simp at h

/-- After the first bucket that does not exist none exists. -/
theorem Chained.hashExists_of_le (hc : Chained r key) {i j : ℕ} (hi : 1 ≤ i) (hij : i ≤ j)
    (h : r.hashExists (key j) = true) : r.hashExists (key i) = true := by
  induction j, hij using Nat.le_induction with
  | base => exact h
  | succ j hij ih => exact ih (hc.chain j (hi.trans hij) h)

/-- **What a lookup does not find, no bucket has.** -/
theorem find_none (hc : Chained r key) {field : String} {n i : ℕ} (hi : 1 ≤ i)
    (hbelow : ∀ j, 1 ≤ j → j < i → r.hget (key j) field = none)
    (h : find r key field n i = some none) (v : String) : ¬ Holds r key field v := by
  induction n generalizing i with
  | zero => simp [find] at h
  | succ n ih =>
      rw [find] at h
      split at h
      · rename_i hex
        cases hg : r.hget (key i) field with
        | some w => rw [hg] at h; simp at h
        | none =>
            rw [hg] at h
            refine ih (Nat.le_succ_of_le hi) (fun j hj hlt => ?_) h
            rcases Nat.lt_succ_iff_lt_or_eq.1 hlt with hlt | rfl
            · exact hbelow j hj hlt
            · exact hg
      · rename_i hex
        rintro ⟨j, hj, hv⟩
        rcases lt_or_ge j i with hlt | hge
        · rw [hbelow j hj hlt] at hv
          simp at hv
        · exact hex (hc.hashExists_of_le hi hge ((hashExists_iff _ _).2 ⟨_, _, hv⟩))

/-- **A lookup comes to an end.** -/
theorem Chained.find_returns (hc : Chained r key) (field : String) :
    ∃ N, ∀ n, N ≤ n → (find r key field n 1).isSome = true := by
  obtain ⟨m, hm⟩ := hc.ends
  have hreach : ∀ n i, m < i + n → (find r key field (n + 1) i).isSome = true := by
    intro n
    induction n with
    | zero =>
        intro i hi
        rw [find, if_neg (by simp [hm i hi])]
        rfl
    | succ n ih =>
        intro i hi
        rw [find]
        split
        · cases r.hget (key i) field with
          | some v => rfl
          | none => exact ih (i + 1) (by omega)
        · rfl
  refine ⟨m + 1, fun n hn => ?_⟩
  obtain ⟨k, rfl⟩ := Nat.exists_eq_add_of_le' (Nat.one_le_of_lt (Nat.lt_of_succ_le hn))
  exact hreach k 1 (by omega)

/-! ### A new field -/

section Put

variable {r' : Store} {size n : ℕ} {field v : String}

/-- **The new field goes into one bucket, and the buckets in front of it are full.** -/
theorem put_cases {i : ℕ} (h : put r key size field v n i = some r') :
    ∃ j, i ≤ j ∧ r' = r.hset (key j) field v ∧ ∀ l, i ≤ l → l < j → size ≤ r.hlen (key l) := by
  induction n generalizing i with
  | zero => simp [put] at h
  | succ n ih =>
      rw [put] at h
      split at h
      · exact ⟨i, le_rfl, (Option.some.inj h).symm, fun l hl hlt => absurd hlt (not_lt.2 hl)⟩
      · rename_i hfull
        obtain ⟨j, hj, hr, hl⟩ := ih h
        refine ⟨j, Nat.le_of_succ_le hj, hr, fun l hle hlt => ?_⟩
        rcases Nat.eq_or_lt_of_le hle with rfl | hlt'
        · exact not_lt.1 hfull
        · exact hl l hlt' hlt

/-- Writing a field makes its hash exist, and keeps the others. -/
theorem hashExists_hset (k k' : String) :
    (r.hset k field v).hashExists k' = true ↔ k' = k ∨ r.hashExists k' = true := by
  simp only [hashExists_iff, hget_hset]
  constructor
  · rintro ⟨f, w, h⟩
    split at h
    · rename_i hk
      exact Or.inl hk.1
    · exact Or.inr ⟨f, w, h⟩
  · rintro (rfl | ⟨f, w, h⟩)
    · exact ⟨field, v, if_pos ⟨rfl, rfl⟩⟩
    · by_cases hk : k' = k ∧ f = field
      · exact ⟨f, v, if_pos hk⟩
      · exact ⟨f, w, (if_neg hk).trans h⟩

/-- **A new field leaves no gap.** -/
theorem Chained.put (hc : Chained r key) (hinj : Function.Injective key) (hs : 0 < size)
    (h : put r key size field v n 1 = some r') : Chained r' key := by
  obtain ⟨j, hj, rfl, hfull⟩ := put_cases h
  refine ⟨fun i hi hex => ?_, ?_⟩
  · rw [hashExists_hset] at hex ⊢
    rcases hex with hk | hex
    · refine Or.inr (decide_eq_true (hs.trans_le (hfull i hi ?_)))
      rw [← hinj hk]
      exact Nat.lt_succ_self i
    · exact Or.inr (hc.chain i hi hex)
  · obtain ⟨m, hm⟩ := hc.ends
    refine ⟨max m j, fun i hi => ?_⟩
    rw [← Bool.not_eq_true, hashExists_hset, hm i (lt_of_le_of_lt (le_max_left _ _) hi)]
    rintro (hk | hex)
    · exact absurd (hinj hk) (lt_of_le_of_lt (le_max_right _ _) hi).ne'
    · exact absurd hex (by simp)

/-- **What the buckets have afterwards**: nothing but the new field and what they had. -/
theorem holds_of_put (h : Buckets.put r key size field v n 1 = some r') {field' v' : String}
    (hv : Holds r' key field' v') : field' = field ∧ v' = v ∨ Holds r key field' v' := by
  obtain ⟨j, -, rfl, -⟩ := put_cases h
  obtain ⟨i, hi, hv⟩ := hv
  rw [hget_hset] at hv
  split at hv
  · rename_i hk
    exact Or.inl ⟨hk.2, (Option.some.inj hv).symm⟩
  · exact Or.inr ⟨i, hi, hv⟩

/-- **They have the new field.** -/
theorem holds_put (h : Buckets.put r key size field v n 1 = some r') : Holds r' key field v := by
  obtain ⟨j, hj, rfl, -⟩ := put_cases h
  exact ⟨j, hj, by rw [hget_hset, if_pos ⟨rfl, rfl⟩]⟩

/-- **They still have every field they had.** -/
theorem holds_put_of_holds (h : Buckets.put r key size field v n 1 = some r') {field' : String}
    (hv : ∃ v', Holds r key field' v') : ∃ v', Holds r' key field' v' := by
  obtain ⟨j, -, rfl, -⟩ := put_cases h
  obtain ⟨v', i, hi, hv⟩ := hv
  by_cases hk : key i = key j ∧ field' = field
  · exact ⟨v, i, hi, by rw [hget_hset, if_pos hk]⟩
  · exact ⟨v', i, hi, by rw [hget_hset, if_neg hk, hv]⟩

/-- More rounds do not matter. -/
theorem put_of_le {m i : ℕ} (hn : n ≤ m) (h : put r key size field v n i = some r') :
    put r key size field v m i = some r' := by
  induction n generalizing m i with
  | zero => simp [put] at h
  | succ n ih =>
      obtain ⟨m, rfl⟩ := Nat.exists_eq_add_of_le' (Nat.one_le_of_lt (Nat.lt_of_succ_le hn))
      rw [put] at h ⊢
      split at h
      · rename_i hroom
        rw [if_pos hroom]
        exact h
      · rename_i hfull
        rw [if_neg hfull]
        exact ih (Nat.le_of_succ_le_succ hn) h

/-- **A new field finds a bucket with room.** -/
theorem Chained.put_returns (hc : Chained r key) (hs : 0 < size) (field v : String) :
    ∃ N, ∀ n, N ≤ n → (Buckets.put r key size field v n 1).isSome = true := by
  obtain ⟨m, hm⟩ := hc.ends
  have hreach : ∀ n i, m < i + n → (Buckets.put r key size field v (n + 1) i).isSome = true := by
    intro n
    induction n with
    | zero =>
        intro i hi
        have hlen : r.hlen (key i) = 0 := by simpa [Store.hashExists] using hm i hi
        rw [Buckets.put, if_pos (by rw [hlen]; exact hs)]
        rfl
    | succ n ih =>
        intro i hi
        rw [Buckets.put]
        split
        · rfl
        · exact ih (i + 1) (by omega)
  refine ⟨m + 1, fun n hn => ?_⟩
  obtain ⟨k, rfl⟩ := Nat.exists_eq_add_of_le' (Nat.one_le_of_lt (Nat.lt_of_succ_le hn))
  exact hreach k 1 (by omega)

end Put

/-! ### Other names -/

/-- A field of a name that is no bucket. -/
theorem hget_hset_of_ne {k f v : String} (hk : ∀ i, key i ≠ k) (i : ℕ) (field : String) :
    (r.hset k f v).hget (key i) field = r.hget (key i) field := by
  rw [hget_hset, if_neg fun h => hk i h.1]

theorem chained_congr {r' : Store} (h : ∀ i field, r'.hget (key i) field = r.hget (key i) field)
    (hc : Chained r key) : Chained r' key := by
  have hex : ∀ i, r'.hashExists (key i) = r.hashExists (key i) := by
    intro i
    rw [Bool.eq_iff_iff, hashExists_iff, hashExists_iff]
    simp only [h]
  refine ⟨fun i hi => ?_, ?_⟩
  · rw [hex, hex]
    exact hc.chain i hi
  · obtain ⟨m, hm⟩ := hc.ends
    exact ⟨m, fun i hi => (hex i).trans (hm i hi)⟩

theorem holds_congr {r' : Store} (h : ∀ i field, r'.hget (key i) field = r.hget (key i) field)
    (field v : String) : Holds r' key field v ↔ Holds r key field v := by
  simp only [Holds, h]

/-! ### Several hashes -/

/-- **The hashes have these rows**: each row is a hash, a field of it and the value. -/
structure Spread {ι : Type} (r : Store) (keys : ι → ℕ → String)
    (rows : List (ι × String × String)) :
    Prop where
  chained : ∀ a, Chained r (keys a)
  held : ∀ a field v, Holds r (keys a) field v → (a, field, v) ∈ rows
  kept : ∀ a field v, (a, field, v) ∈ rows → ∃ v', Holds r (keys a) field v'

namespace Spread

variable {ι : Type} {r r' : Store} {keys : ι → ℕ → String} {rows : List (ι × String × String)}

/-- No bucket exists. -/
theorem empty (h : ∀ a i, r.hashExists (keys a i) = false) : Spread r keys [] where
  chained a := ⟨fun i _ hex => absurd hex (by simp [h]), 0, fun i _ => h a i⟩
  held a field v hv := by
    obtain ⟨i, -, hv⟩ := hv
    exact absurd ((hashExists_iff _ _).2 ⟨_, _, hv⟩) (by simp [h])
  kept a field v hrow := absurd hrow List.not_mem_nil

/-- Only the buckets count. -/
theorem congr (hget : ∀ a i field, r'.hget (keys a i) field = r.hget (keys a i) field)
    (h : Spread r keys rows) : Spread r' keys rows where
  chained a := chained_congr (hget a) (h.chained a)
  held a field v hv := h.held a field v ((holds_congr (hget a) field v).1 hv)
  kept a field v hrow := by
    obtain ⟨v', hv⟩ := h.kept a field v hrow
    exact ⟨v', (holds_congr (hget a) field v').2 hv⟩

/-- **A new field is one row more.** -/
theorem put (hinj : ∀ {a b i j}, keys a i = keys b j → a = b ∧ i = j) {a : ι} {size n : ℕ}
    {field v : String} (hs : 0 < size) (h : Spread r keys rows)
    (hp : Buckets.put r (keys a) size field v n 1 = some r') :
    Spread r' keys ((a, field, v) :: rows) := by
  -- the buckets of the other hashes
  have other : ∀ b, b ≠ a → ∀ i field', r'.hget (keys b i) field' = r.hget (keys b i) field' := by
    intro b hb i field'
    obtain ⟨j, -, rfl, -⟩ := put_cases hp
    exact hget_hset_of_ne (fun i' he => hb (hinj he).1) i field'
  refine ⟨fun b => ?_, fun b field' v' hv => ?_, fun b field' v' hrow => ?_⟩
  · by_cases hb : b = a
    · rw [hb]
      exact (h.chained a).put (fun i j he => (hinj he).2) hs hp
    · exact chained_congr (other b hb) (h.chained b)
  · by_cases hb : b = a
    · rw [hb] at hv ⊢
      rcases holds_of_put hp hv with ⟨rfl, rfl⟩ | hv
      · exact List.mem_cons_self
      · exact List.mem_cons_of_mem _ (h.held a field' v' hv)
    · exact List.mem_cons_of_mem _ (h.held b field' v' ((holds_congr (other b hb) field' v').1 hv))
  · rcases List.mem_cons.1 hrow with he | hrow
    · obtain ⟨hb, he⟩ := Prod.mk.inj he
      obtain ⟨rfl, rfl⟩ := Prod.mk.inj he
      rw [hb]
      exact ⟨_, holds_put hp⟩
    · obtain ⟨w, hw⟩ := h.kept b field' v' hrow
      by_cases hb : b = a
      · rw [hb] at hw ⊢
        exact holds_put_of_holds hp ⟨w, hw⟩
      · exact ⟨w, (holds_congr (other b hb) field' w).2 hw⟩

/-- **A lookup finds the only row of its field.** -/
theorem find_of_mem {a : ι} {field v : String} (h : Spread r keys rows)
    (hrow : (a, field, v) ∈ rows)
    (hone : ∀ v', (a, field, v') ∈ rows → v' = v) :
    ∃ N, ∀ n, N ≤ n → find r (keys a) field n 1 = some (some v) := by
  obtain ⟨w, hw⟩ := h.kept a field v hrow
  obtain ⟨N, hN⟩ := (h.chained a).find_returns field
  refine ⟨N, fun n hn => ?_⟩
  obtain ⟨o, ho⟩ := Option.isSome_iff_exists.1 (hN n hn)
  cases o with
  | none => exact absurd hw (find_none (h.chained a) le_rfl (fun j h₁ h₂ => by omega) ho w)
  | some v' => rw [ho, hone v' (h.held a field v' (find_some le_rfl ho))]

/-- **It finds nothing where there is no row.** -/
theorem find_of_notMem {a : ι} {field : String} (h : Spread r keys rows)
    (hno : ∀ v, (a, field, v) ∉ rows) :
    ∃ N, ∀ n, N ≤ n → find r (keys a) field n 1 = some none := by
  obtain ⟨N, hN⟩ := (h.chained a).find_returns field
  refine ⟨N, fun n hn => ?_⟩
  obtain ⟨o, ho⟩ := Option.isSome_iff_exists.1 (hN n hn)
  cases o with
  | none => exact ho
  | some v => exact absurd (h.held a field v (find_some le_rfl ho)) (hno v)

end Spread

end Redis.Buckets
