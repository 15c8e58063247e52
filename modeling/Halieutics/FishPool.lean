/-
**The pool of `roles`.**

`sdk.lua` recycles fish and bullets: an object that is freed goes to the end of a free storage, and
the next one to be activated is taken from there and given a new id in place.  Fish are stored by
their ids; bullets in a list for every seat.  A bullet leaves its list in one of three ways: it is
freed by its id, or by its kind, or it expires.

An observer keeps a ledger beside the storages: which ids have been issued, and which bullets have
left the active storage since.

Main definitions:

* `Halieutics.Roles.Op`, `Halieutics.Roles.apply` — the operations;
* `Halieutics.Roles.bulletIds` — the ids of the active bullets;
* `Halieutics.Ledger`, `Halieutics.Ledger.run` — the storages and what an observer knows about them;
* `Halieutics.PoolSound` — **what the pool promises**.

Main results:

* `Halieutics.vals_foldl_erase` — taking many entries out of a table;
* `Halieutics.FishKept` — what the operations do to the fish, and `Halieutics.Kept` to the bullets;
* `Halieutics.LedgerInv.apply` — **every operation keeps the ledger**;
* `Halieutics.poolSound_run` — **the pool is sound after every sequence of operations**.
-/

import Halieutics.FishBullets

set_option relaxedAutoImplicit false
set_option autoImplicit false

namespace Halieutics

open LuaTable

/-! ### The operations -/

namespace Roles

/-- The operations.  The callers of `ActiveFish` and `ActiveBullet` set the kind of the object they
get, and the multiple of a bullet; the kind `-1` is the one it has anyway. -/
inductive Op where
  | activeFish (now : ℕ) (kind : ℤ)
  | freeFish (fid : ℕ)
  | activeBullet (seat : ℤ) (now : ℕ) (kind : ℤ) (multiple : ℕ)
  | freeBullet (bid : ℕ) (seat : ℤ)
  | freeBulletOfKind (kind seat : ℤ)
  | update (now : ℕ)
  | freeAll

/-- **What an operation does.** -/
def apply (r : Roles) : Op → Roles
  | .activeFish now kind => r.buildFish now [kind]
  | .freeFish fid => (r.freeFish fid).1
  | .activeBullet seat now kind multiple => (r.loadBullet seat now kind multiple).1
  | .freeBullet bid seat => (r.freeBullet bid seat).1
  | .freeBulletOfKind kind seat => (r.freeBulletOfKind kind seat).1
  | .update now => r.update now
  | .freeAll => r.freeAll

/-- The ids of the active bullets of all seats. -/
def bulletIds (r : Roles) : List ℕ := r.activeBullets.map fun b => (r.bullets b).id

end Roles

/-- **The storages and the ledger**: the ids of the fish and of the bullets that were issued, and
the ids of the bullets that have left the active storage, each as often as it happened. -/
structure Ledger where
  roles : Roles := {}
  fish : List ℕ := []
  bullets : List ℕ := []
  left : List ℕ := []

namespace Ledger

/-- The id that an operation issues is the new value of the generator. -/
def apply (s : Ledger) (op : Roles.Op) : Ledger where
  roles := s.roles.apply op
  fish := match op with
    | .activeFish _ _ => (s.roles.apply op).fishIdGen :: s.fish
    | _ => s.fish
  bullets := match op with
    | .activeBullet _ _ _ _ => (s.roles.apply op).bulletIdGen :: s.bullets
    | _ => s.bullets
  left := s.left ++ s.roles.bulletIds.diff (s.roles.apply op).bulletIds

/-- A sequence of operations on the storages made by `roles.create`. -/
def run (ops : List Roles.Op) : Ledger := ops.foldl apply {}

end Ledger

/-- **What the pool promises**: no object is at once in an active and a free storage, or twice in
one; every active fish is stored under its own id; the ids of the active bullets are different, over
all seats; active ids have been issued, and none exceeds its generator; no id is issued twice; and a
bullet leaves the active storage at most once. -/
structure PoolSound (s : Ledger) : Prop where
  fishOnce : (vals s.roles.fishActive ++ s.roles.fishFree).Nodup
  bulletOnce : (s.roles.activeBullets ++ s.roles.bulletFree).Nodup
  own : ∀ id f, s.roles.fishActive.lookup id = some f → (s.roles.fish f).id = id
  unique : s.roles.bulletIds.Nodup
  fishIds : ∀ id f, s.roles.fishActive.lookup id = some f → id ∈ s.fish
  bulletIds : ∀ id ∈ s.roles.bulletIds, id ∈ s.bullets
  fishGen : ∀ id ∈ s.fish, id ≤ s.roles.fishIdGen
  bulletGen : ∀ id ∈ s.bullets, id ≤ s.roles.bulletIdGen
  fishFresh : s.fish.Nodup
  bulletFresh : s.bullets.Nodup
  leftOnce : s.left.Nodup
  leftFor : ∀ id ∈ s.left, id ∈ s.bullets ∧ id ∉ s.roles.bulletIds

/-! ### The fish -/

/-- **Many entries are taken out of a table.** -/
theorem vals_foldl_erase {l : List (Sigma fun _ : ℕ => Ref)} {t : Table ℕ Ref}
    (hl : ∀ e ∈ l, e ∈ t.entries) (hn : (l.map Sigma.fst).Nodup) :
    (vals t).Perm (l.map Sigma.snd ++ vals (l.foldl (fun t e => t.erase e.1) t)) := by
  induction l generalizing t with
  | nil => exact List.Perm.refl _
  | cons e l ih =>
      obtain ⟨hne, hn⟩ := List.nodup_cons.1 hn
      have he : t.lookup e.1 = some e.2 := AList.mem_lookup_iff.2 (hl e List.mem_cons_self)
      refine (vals_perm_erase he).trans (List.Perm.cons _ (ih ?_ hn))
      intro e' he'
      have hne' : e'.1 ≠ e.1 := fun h => hne (h ▸ List.mem_map_of_mem he')
      refine AList.mem_lookup_iff.1 ?_
      rw [Option.mem_def, AList.lookup_erase_ne hne']
      exact AList.mem_lookup_iff.2 (hl e' (List.mem_cons_of_mem _ he'))

/-- What is left after entries were taken out was there before. -/
theorem lookup_of_foldl_erase (l : List (Sigma fun _ : ℕ => Ref)) {t : Table ℕ Ref}
    {id : ℕ} {f : Ref}
    (h : (l.foldl (fun t e => t.erase e.1) t).lookup id = some f) : t.lookup id = some f := by
  induction l generalizing t with
  | nil => exact h
  | cons e l ih =>
      have h' := ih h
      rw [lookup_erase_eq] at h'
      split at h'
      · cases h'
      · exact h'

/-- **Fish may be freed, and nothing else happens to them.** -/
structure FishKept (r r' : Roles) : Prop where
  refs : (vals r'.fishActive ++ r'.fishFree).Subperm (vals r.fishActive ++ r.fishFree)
  active : ∀ id f, r'.fishActive.lookup id = some f → r.fishActive.lookup id = some f
  fish : r'.fish = r.fish
  fishN : r'.fishN = r.fishN
  gen : r'.fishIdGen = r.fishIdGen

theorem FishKept.of_eq {r r' : Roles} (ha : r'.fishActive = r.fishActive)
    (hf : r'.fishFree = r.fishFree) (ho : r'.fish = r.fish) (hn : r'.fishN = r.fishN)
    (hg : r'.fishIdGen = r.fishIdGen) : FishKept r r' where
  refs := by rw [ha, hf]
  active := fun id f h => ha ▸ h
  fish := ho
  fishN := hn
  gen := hg

theorem fishKept_freeFish (r : Roles) (fid : ℕ) : FishKept r (r.freeFish fid).1 := by
  unfold Roles.freeFish
  cases h : r.fishActive.lookup fid with
  | none => exact .of_eq rfl rfl rfl rfl rfl
  | some f =>
      refine ⟨?_, ?_, rfl, rfl, rfl⟩
      · -- the object moves from one storage to the other
        have hp := (vals_perm_erase h).append_right r.fishFree
        refine (List.Perm.trans ?_ hp.symm).subperm
        exact ((@List.perm_append_comm _ r.fishFree [f]).append_left _).trans
          List.perm_middle
      · intro id f' hl
        rw [lookup_erase_eq] at hl
        split at hl
        · cases hl
        · exact hl

theorem fishKept_update (r : Roles) (now : ℕ) : FishKept r (r.update now) := by
  refine ⟨?_, ?_, rfl, rfl, rfl⟩
  · -- the objects of the entries that expire are those that go to the free storage
    have hold : ((r.fishActive.entries.filter fun e =>
        decide ((r.fish e.2).buildTick + fishExpireTime ≤ now)).map Sigma.snd)
        = (vals r.fishActive).filter fun f =>
          decide ((r.fish f).buildTick + fishExpireTime ≤ now) := by
      rw [vals, List.filter_map]
      rfl
    have hp := vals_foldl_erase (t := r.fishActive)
      (l := r.fishActive.entries.filter fun e =>
        decide ((r.fish e.2).buildTick + fishExpireTime ≤ now))
      (fun e he => List.mem_of_mem_filter he)
      ((List.filter_sublist.map Sigma.fst).nodup r.fishActive.nodupKeys)
    rw [hold] at hp
    refine (List.Perm.trans ?_ (hp.append_right r.fishFree).symm).subperm
    simp only [Roles.update]
    rw [List.append_assoc]
    refine (List.Perm.append_left _ List.perm_append_comm).trans ?_
    rw [← List.append_assoc, ← List.append_assoc]
    exact List.perm_append_comm.append_right _
  · intro id f h
    exact lookup_of_foldl_erase _ h

theorem fishKept_freeAll (r : Roles) : FishKept r r.freeAll := by
  refine ⟨List.nil_subperm, fun id f hl => ?_, rfl, rfl, rfl⟩
  cases hl

/-- Bullets are not fish. -/
theorem fishKept_takeBullet (r : Roles) (p : Bullet → Bool) (seat : ℤ) :
    FishKept r (r.takeBullet p seat).1 := by
  rcases ht : r.takeBullet p seat with ⟨r', b⟩
  cases b with
  | none =>
      rw [takeBullet_none ht]
      exact .of_eq rfl rfl rfl rfl rfl
  | some b =>
      obtain ⟨mine, mine', -, -, rfl⟩ := takeBullet_spec ht
      exact .of_eq rfl rfl rfl rfl rfl

/-- The object that `ActiveFish` hands out is not in use. -/
theorem buildFish_spec (r : Roles) (now : ℕ) (kind : ℤ) :
    ∃ f free n, r.buildFish now [kind] = { r with
        fish := Function.update r.fish f ⟨kind, r.fishIdGen + 1, now⟩
        fishN := n
        fishActive := r.fishActive.insert (r.fishIdGen + 1) f
        fishFree := free
        fishIdGen := r.fishIdGen + 1 } ∧
      ((r.fishFree = free ++ [f] ∧ n = r.fishN) ∨
       (r.fishFree = [] ∧ free = [] ∧ f = r.fishN ∧ n = r.fishN + 1)) := by
  unfold Roles.buildFish Roles.buildFish Roles.activeFish
  dsimp only
  cases h : r.fishFree.getLast? with
  | some f =>
      obtain ⟨free, hfree⟩ := List.getLast?_eq_some_iff.1 h
      refine ⟨f, free, r.fishN, ?_, Or.inl ⟨hfree, rfl⟩⟩
      simp [hfree]
  | none =>
      have hfree : r.fishFree = [] := List.getLast?_eq_none_iff.1 h
      refine ⟨r.fishN, [], r.fishN + 1, ?_, Or.inr ⟨hfree, rfl, rfl, rfl⟩⟩
      simp [hfree]

/-! ### The bullets -/

theorem bulletIds_eq (r : Roles) : r.bulletIds = r.vouchers.map Prod.fst := by
  rw [Roles.bulletIds, activeBullets_eq, Roles.vouchers]
  simp only [List.map_flatMap, List.map_map]
  rfl

theorem Kept.bulletIds {r r' : Roles} (h : Kept r r') : r'.bulletIds.Subperm r.bulletIds := by
  rw [bulletIds_eq, bulletIds_eq]
  obtain ⟨l, hl, hs⟩ := h.vouchers
  exact ⟨l.map Prod.fst, hl.map _, hs.map _⟩

/-- A bullet is freed by its id or by its kind. -/
theorem kept_takeBullet (r : Roles) (p : Bullet → Bool) (seat : ℤ) :
    Kept r (r.takeBullet p seat).1 := by
  rcases h : r.takeBullet p seat with ⟨r', b⟩
  cases b with
  | none =>
      rw [takeBullet_none h]
      exact .refl r
  | some b =>
      obtain ⟨mine, mine', hk, hp, rfl⟩ := takeBullet_spec h
      have hact := flatMap_take hk hp fun _ b => b
      rw [← activeBullets_eq] at hact
      refine ⟨List.Perm.subperm ?_, ?_, rfl, rfl⟩
      · refine List.Perm.trans ?_ (hact.append_right r.bulletFree).symm
        rw [activeBullets_eq, ← List.append_assoc]
        exact List.perm_append_singleton _ _
      · have hv := flatMap_take hk hp r.voucher
        exact (List.sublist_cons_self _ _).subperm.trans hv.symm.subperm

/-- A new bullet: its id is the one that was issued, and the others stay. -/
theorem bulletIds_load {r : Roles} (hrefs : (r.activeBullets ++ r.bulletFree).Nodup)
    (hmade : ∀ b ∈ r.activeBullets ++ r.bulletFree, b < r.bulletN) (seat : ℤ) (now : ℕ) (kind : ℤ)
    (multiple : ℕ) :
    (r.loadBullet seat now kind multiple).1.bulletIds.Perm
    ((r.bulletIdGen + 1) :: r.bulletIds) := by
  obtain ⟨b, free, n, hactive, -, -, -, hne, hself, hid, -, hb⟩ :=
    loadBullet_spec r seat now kind multiple
  have hnew : b ∉ r.activeBullets := by
    intro hm
    rcases hb with ⟨hfree, -⟩ | ⟨-, -, rfl, -⟩
    · refine (List.nodup_append.1 hrefs).2.2 b hm b ?_ rfl
      rw [hfree]
      exact List.mem_append_right _ List.mem_cons_self
    · exact Nat.lt_irrefl _ (hmade _ (List.mem_append_left _ hm))
  have hact : (r.loadBullet seat now kind multiple).1.activeBullets.Perm
    (b :: r.activeBullets) := by
    rw [activeBullets_eq, activeBullets_eq, hactive]
    exact flatMap_append r.bulletActive seat b (f := fun _ b => b) (g := fun _ b => b)
      fun _ _ _ _ => rfl
  refine (hact.map _).trans ?_
  rw [List.map_cons, hself, hid]
  refine List.Perm.of_eq (congrArg _ (List.map_congr_left fun x hx => ?_))
  rw [hne x (ne_of_mem_of_not_mem hx hnew)]

/-! ### The ledger -/

/-- **The invariant**: the pool is sound, and every object in a storage has been made. -/
structure LedgerInv (s : Ledger) : Prop where
  sound : PoolSound s
  fishMade : ∀ f ∈ vals s.roles.fishActive ++ s.roles.fishFree, f < s.roles.fishN
  bulletMade : ∀ b ∈ s.roles.activeBullets ++ s.roles.bulletFree, b < s.roles.bulletN

/-- Bullets leave the active storage. -/
theorem left_kept {l r r' : List ℕ} (h : r'.Subperm r) : (l ++ r.diff r' ++ r').Perm (l ++ r) := by
  rw [List.append_assoc]
  refine List.Perm.append_left _ ?_
  refine List.perm_append_comm.trans ?_
  exact List.subperm_append_diff_self_of_count_le (List.subperm_ext_iff.1 h)

/-- The bullets are the same, or more of them are free. -/
theorem LedgerInv.bullets {s : Ledger} {r' : Roles} (hk : Kept s.roles r') (h : LedgerInv s) :
    (r'.activeBullets ++ r'.bulletFree).Nodup ∧ r'.bulletIds.Nodup ∧
      (∀ id ∈ r'.bulletIds, id ∈ s.bullets) ∧ (∀ id ∈ s.bullets, id ≤ r'.bulletIdGen) ∧
      (s.left ++ s.roles.bulletIds.diff r'.bulletIds).Nodup ∧
      (∀ id ∈ s.left ++ s.roles.bulletIds.diff r'.bulletIds, id ∈ s.bullets ∧ id ∉ r'.bulletIds) ∧
      (∀ b ∈ r'.activeBullets ++ r'.bulletFree, b < r'.bulletN) := by
  have hids := hk.bulletIds
  have hsub : ∀ id ∈ r'.bulletIds, id ∈ s.roles.bulletIds := fun id hid => hids.subset hid
  -- what has left and what is active is what it was
  have hperm := left_kept (l := s.left) hids
  have hall : (s.left ++ s.roles.bulletIds).Nodup := by
    refine List.nodup_append.2 ⟨h.sound.leftOnce, h.sound.unique, ?_⟩
    rintro a ha b hb rfl
    exact (h.sound.leftFor a ha).2 hb
  obtain ⟨hleft, hnodup, hdisj⟩ := List.nodup_append.1 (hperm.nodup_iff.2 hall)
  obtain ⟨l, hl, hls⟩ := hk.refs
  refine ⟨hl.nodup_iff.1 (hls.nodup h.sound.bulletOnce), hnodup,
    fun id hid => h.sound.bulletIds id (hsub id hid), ?_, hleft, ?_, ?_⟩
  · rw [hk.gen]
    exact h.sound.bulletGen
  · intro id hid
    refine ⟨?_, fun hid' => hdisj id hid id hid' rfl⟩
    rcases List.mem_append.1 hid with hid | hid
    · exact (h.sound.leftFor id hid).1
    · exact h.sound.bulletIds id ((List.diff_sublist _ _).subset hid)
  · intro b hb
    rw [hk.bulletN]
    exact h.bulletMade b (hk.refs.subset hb)

/-- The fish are the same, or more of them are free. -/
theorem LedgerInv.fish {s : Ledger} {r' : Roles} (hk : FishKept s.roles r') (h : LedgerInv s) :
    (vals r'.fishActive ++ r'.fishFree).Nodup ∧
      (∀ id f, r'.fishActive.lookup id = some f → (r'.fish f).id = id) ∧
      (∀ id f, r'.fishActive.lookup id = some f → id ∈ s.fish) ∧
      (∀ id ∈ s.fish, id ≤ r'.fishIdGen) ∧
      (∀ f ∈ vals r'.fishActive ++ r'.fishFree, f < r'.fishN) := by
  obtain ⟨l, hl, hls⟩ := hk.refs
  refine ⟨hl.nodup_iff.1 (hls.nodup h.sound.fishOnce), ?_, ?_, ?_, ?_⟩
  · intro id f hf
    rw [hk.fish]
    exact h.sound.own id f (hk.active id f hf)
  · exact fun id f hf => h.sound.fishIds id f (hk.active id f hf)
  · rw [hk.gen]
    exact h.sound.fishGen
  · intro f hf
    rw [hk.fishN]
    exact h.fishMade f (hk.refs.subset hf)

/-- An operation that issues nothing. -/
theorem LedgerInv.kept {s s' : Ledger} (hf : FishKept s.roles s'.roles) (hb : Kept s.roles s'.roles)
    (hfish : s'.fish = s.fish) (hbullets : s'.bullets = s.bullets)
    (hleft : s'.left = s.left ++ s.roles.bulletIds.diff s'.roles.bulletIds) (h : LedgerInv s) :
    LedgerInv s' := by
  obtain ⟨hf₁, hf₂, hf₃, hf₄, hf₅⟩ := h.fish hf
  obtain ⟨hb₁, hb₂, hb₃, hb₄, hb₅, hb₆, hb₇⟩ := h.bullets hb
  rw [← hleft] at hb₅ hb₆
  rw [← hfish] at hf₃ hf₄
  rw [← hbullets] at hb₃ hb₄ hb₆
  exact
    { sound :=
        { fishOnce := hf₁, bulletOnce := hb₁, own := hf₂, unique := hb₂, fishIds := hf₃
          bulletIds := hb₃, fishGen := hf₄, bulletGen := hb₄
          fishFresh := hfish ▸ h.sound.fishFresh, bulletFresh := hbullets ▸ h.sound.bulletFresh
          leftOnce := hb₅, leftFor := hb₆ }
      fishMade := hf₅
      bulletMade := hb₇ }

/-- **A fish is issued.** -/
theorem LedgerInv.issueFish {s : Ledger} (now : ℕ) (kind : ℤ) (h : LedgerInv s) :
    LedgerInv (s.apply (.activeFish now kind)) := by
  obtain ⟨f, free, n, hr, hf⟩ := buildFish_spec s.roles now kind
  have hroles : (s.apply (.activeFish now kind)).roles = s.roles.buildFish now [kind] := rfl
  have hkept : Kept s.roles (s.apply (.activeFish now kind)).roles := by
    rw [hroles]
    exact (sameBullets_buildFish now [kind] s.roles).kept
  obtain ⟨hb₁, hb₂, hb₃, hb₄, hb₅, hb₆, hb₇⟩ := h.bullets hkept
  have hfish : (s.apply (.activeFish now kind)).fish = (s.roles.fishIdGen + 1) :: s.fish := by
    change (s.roles.buildFish now [kind]).fishIdGen :: s.fish = _
    rw [hr]
  -- the id is new, so the table gains one entry
  have hnone : s.roles.fishActive.lookup (s.roles.fishIdGen + 1) = none := by
    cases hl : s.roles.fishActive.lookup (s.roles.fishIdGen + 1) with
    | none => rfl
    | some f' =>
        have := h.sound.fishGen _ (h.sound.fishIds _ f' hl)
        omega
  have hstore : (f :: (vals s.roles.fishActive ++ free)).Nodup ∧
      ∀ x ∈ f :: (vals s.roles.fishActive ++ free), x < n := by
    rcases hf with ⟨hfree, rfl⟩ | ⟨hfree, rfl, rfl, rfl⟩
    · have hperm : (vals s.roles.fishActive ++ s.roles.fishFree).Perm
          (f :: (vals s.roles.fishActive ++ free)) := by
        rw [hfree, ← List.append_assoc]
        exact List.perm_append_singleton _ _
      exact ⟨hperm.nodup_iff.1 h.sound.fishOnce, fun x hx => h.fishMade x (hperm.mem_iff.2 hx)⟩
    · have hmade := h.fishMade
      have honce := h.sound.fishOnce
      rw [hfree] at hmade honce
      refine ⟨List.nodup_cons.2 ⟨fun hm => Nat.lt_irrefl _ (hmade _ hm), honce⟩, ?_⟩
      intro x hx
      rcases List.mem_cons.1 hx with rfl | hx
      · exact Nat.lt_succ_self _
      · exact Nat.lt_succ_of_lt (hmade x hx)
  have hvals : vals (s.roles.fishActive.insert (s.roles.fishIdGen + 1) f)
      = f :: vals s.roles.fishActive := vals_insert hnone
  -- the other fish are not the new one
  have hother : ∀ id f', id ≠ s.roles.fishIdGen + 1 → s.roles.fishActive.lookup id = some f' →
      f' ≠ f := by
    rintro id f' - hl rfl
    exact (List.nodup_cons.1 hstore.1).1 (List.mem_append_left _ (mem_vals.2 ⟨id, hl⟩))
  have hlookup : ∀ id f',
    (s.roles.fishActive.insert (s.roles.fishIdGen + 1) f).lookup id = some f' →
      (id = s.roles.fishIdGen + 1 ∧ f' = f) ∨
        (id ≠ s.roles.fishIdGen + 1 ∧ s.roles.fishActive.lookup id = some f') := by
    intro id f' hl
    rw [lookup_insert_eq] at hl
    split at hl
    · exact Or.inl ⟨by assumption, (Option.some_inj.1 hl).symm⟩
    · exact Or.inr ⟨by assumption, hl⟩
  refine ⟨⟨?_, hb₁, ?_, hb₂, ?_, hb₃, ?_, hb₄, ?_, h.sound.bulletFresh, hb₅, hb₆⟩, ?_, hb₇⟩
  · rw [hroles, hr]
    change (vals (s.roles.fishActive.insert _ f) ++ free).Nodup
    rw [hvals]
    exact hstore.1
  · rw [hroles, hr]
    intro id f' hl
    change (Function.update s.roles.fish f _ f').id = id
    rcases hlookup id f' hl with ⟨rfl, rfl⟩ | ⟨hne, hl⟩
    · rw [Function.update_self]
    · rw [Function.update_of_ne (hother id f' hne hl)]
      exact h.sound.own id f' hl
  · rw [hroles, hr, hfish]
    intro id f' hl
    rcases hlookup id f' hl with ⟨rfl, -⟩ | ⟨-, hl⟩
    · exact List.mem_cons_self
    · exact List.mem_cons_of_mem _ (h.sound.fishIds id f' hl)
  · rw [hroles, hr, hfish]
    intro id hid
    change id ≤ s.roles.fishIdGen + 1
    rcases List.mem_cons.1 hid with rfl | hid
    · exact Nat.le_refl _
    · exact Nat.le_succ_of_le (h.sound.fishGen id hid)
  · rw [hfish]
    refine List.nodup_cons.2 ⟨fun hm => ?_, h.sound.fishFresh⟩
    have := h.sound.fishGen _ hm
    omega
  · rw [hroles, hr]
    change ∀ x ∈ vals (s.roles.fishActive.insert _ f) ++ free, x < n
    rw [hvals]
    exact hstore.2

/-- **A bullet is issued.** -/
theorem LedgerInv.issueBullet {s : Ledger} (seat : ℤ) (now : ℕ) (kind : ℤ) (multiple : ℕ)
    (h : LedgerInv s) : LedgerInv (s.apply (.activeBullet seat now kind multiple)) := by
  have hids := bulletIds_load h.sound.bulletOnce h.bulletMade seat now kind multiple
  obtain ⟨b, free, n, hactive, hfree, hn, hgen, -, -, -, -, hb⟩ :=
    loadBullet_spec s.roles seat now kind multiple
  have hfish : FishKept s.roles (s.apply (.activeBullet seat now kind multiple)).roles := by
    change FishKept s.roles (s.roles.loadBullet seat now kind multiple).1
    unfold Roles.loadBullet Roles.activeBullet
    dsimp only
    split <;> exact .of_eq rfl rfl rfl rfl rfl
  obtain ⟨hf₁, hf₂, hf₃, hf₄, hf₅⟩ := h.fish hfish
  have hroles : (s.apply (.activeBullet seat now kind multiple)).roles
      = (s.roles.loadBullet seat now kind multiple).1 := rfl
  have hissued : (s.apply (.activeBullet seat now kind multiple)).bullets
      = (s.roles.bulletIdGen + 1) :: s.bullets := by
    change (s.roles.loadBullet seat now kind multiple).1.bulletIdGen :: s.bullets = _
    rw [hgen]
  generalize s.roles.loadBullet seat now kind multiple = p at hids hactive hfree hn hgen hroles
  have hnew : s.roles.bulletIdGen + 1 ∉ s.bullets := by
    intro hm
    have := h.sound.bulletGen _ hm
    omega
  -- nothing has left
  have hleft : (s.apply (.activeBullet seat now kind multiple)).left = s.left := by
    change s.left ++ s.roles.bulletIds.diff
      (s.apply (.activeBullet seat now kind multiple)).roles.bulletIds
      = s.left
    rw [hroles]
    have hsub : s.roles.bulletIds.Subperm p.1.bulletIds :=
      (List.sublist_cons_self _ _).subperm.trans hids.symm.subperm
    have hnil : s.roles.bulletIds.diff p.1.bulletIds = [] := by
      refine List.eq_nil_iff_forall_not_mem.2 fun x hx => ?_
      obtain ⟨hin, hout⟩ := h.sound.unique.mem_sdiff_iff.1 hx
      exact hout (hsub.subset hin)
    rw [hnil, List.append_nil]
  have hstore : (b :: (s.roles.activeBullets ++ free)).Nodup ∧
      ∀ x ∈ b :: (s.roles.activeBullets ++ free), x < n := by
    rcases hb with ⟨hfree', rfl⟩ | ⟨hfree', rfl, rfl, rfl⟩
    · have hperm : (s.roles.activeBullets ++ s.roles.bulletFree).Perm
          (b :: (s.roles.activeBullets ++ free)) := by
        rw [hfree', ← List.append_assoc]
        exact List.perm_append_singleton _ _
      exact ⟨hperm.nodup_iff.1 h.sound.bulletOnce, fun x hx => h.bulletMade x (hperm.mem_iff.2 hx)⟩
    · have hmade := h.bulletMade
      have honce := h.sound.bulletOnce
      rw [hfree'] at hmade honce
      refine ⟨List.nodup_cons.2 ⟨fun hm => Nat.lt_irrefl _ (hmade _ hm), honce⟩, ?_⟩
      intro x hx
      rcases List.mem_cons.1 hx with rfl | hx
      · exact Nat.lt_succ_self _
      · exact Nat.lt_succ_of_lt (hmade x hx)
  have hact : p.1.activeBullets.Perm (b :: s.roles.activeBullets) := by
    rw [activeBullets_eq, activeBullets_eq, hactive]
    exact flatMap_append s.roles.bulletActive seat b (f := fun _ b => b) (g := fun _ b => b)
      fun _ _ _ _ => rfl
  refine ⟨⟨hf₁, ?_, hf₂, ?_, hf₃, ?_, hf₄, ?_, h.sound.fishFresh, ?_, ?_, ?_⟩, hf₅, ?_⟩
  · rw [hroles, hfree]
    exact (hact.append_right free).nodup_iff.2 hstore.1
  · rw [hroles]
    refine hids.nodup_iff.2 (List.nodup_cons.2 ⟨fun hm => ?_, h.sound.unique⟩)
    exact hnew (h.sound.bulletIds _ hm)
  · rw [hroles, hissued]
    intro id hid
    rcases List.mem_cons.1 (hids.mem_iff.1 hid) with rfl | hid
    · exact List.mem_cons_self
    · exact List.mem_cons_of_mem _ (h.sound.bulletIds id hid)
  · rw [hroles, hissued, hgen]
    intro id hid
    rcases List.mem_cons.1 hid with rfl | hid
    · exact Nat.le_refl _
    · exact Nat.le_succ_of_le (h.sound.bulletGen id hid)
  · rw [hissued]
    exact List.nodup_cons.2 ⟨hnew, h.sound.bulletFresh⟩
  · rw [hleft]
    exact h.sound.leftOnce
  · rw [hleft, hroles, hissued]
    intro id hid
    obtain ⟨hin, hout⟩ := h.sound.leftFor id hid
    refine ⟨List.mem_cons_of_mem _ hin, fun hm => ?_⟩
    rcases List.mem_cons.1 (hids.mem_iff.1 hm) with rfl | hm
    · exact hnew hin
    · exact hout hm
  · rw [hroles, hfree, hn]
    exact fun x hx => hstore.2 x ((hact.append_right free).mem_iff.1 hx)

/-- **Every operation keeps the ledger.** -/
theorem LedgerInv.apply {s : Ledger} (op : Roles.Op) (h : LedgerInv s) :
    LedgerInv (s.apply op) := by
  cases op with
  | activeFish now kind => exact h.issueFish now kind
  | activeBullet seat now kind multiple => exact h.issueBullet seat now kind multiple
  | freeFish fid =>
      refine h.kept (fishKept_freeFish s.roles fid) ?_ rfl rfl rfl
      refine SameBullets.kept ?_
      change SameBullets s.roles (s.roles.freeFish fid).1
      unfold Roles.freeFish
      split <;> exact ⟨rfl, rfl, rfl, rfl, rfl⟩
  | freeBullet bid seat =>
      exact h.kept (fishKept_takeBullet _ _ seat) (kept_takeBullet _ _ seat) rfl rfl rfl
  | freeBulletOfKind kind seat =>
      exact h.kept (fishKept_takeBullet _ _ seat) (kept_takeBullet _ _ seat) rfl rfl rfl
  | update now => exact h.kept (fishKept_update s.roles now) (kept_update s.roles now) rfl rfl rfl
  | freeAll => exact h.kept (fishKept_freeAll s.roles) (kept_freeAll s.roles) rfl rfl rfl

theorem ledgerInv_run (ops : List Roles.Op) : LedgerInv (Ledger.run ops) := by
  have h₀ : LedgerInv {} := by
    refine ⟨⟨?_, ?_, ?_, ?_, ?_, ?_, ?_, ?_, ?_, ?_, ?_, ?_⟩, ?_, ?_⟩ <;>
      simp [Roles.activeBullets, Roles.bulletIds]
  have hfold : ∀ (ops : List Roles.Op) (s : Ledger),
    LedgerInv s → LedgerInv (ops.foldl Ledger.apply s) := by
    intro ops
    induction ops with
    | nil => exact fun s hs => hs
    | cons op ops ih => exact fun s hs => ih _ (hs.apply op)
  exact hfold ops {} h₀

/-- **The pool is sound after every sequence of operations.** -/
theorem poolSound_run (ops : List Roles.Op) :
    PoolSound (Ledger.run ops) := (ledgerInv_run ops).sound

/-- A bullet that is freed is handed out again under a new id, and leaves once under either. -/
example : (Ledger.run [.activeBullet 1 0 0 1, .freeBullet 1 1, .activeBullet 2 5 0 1,
    .freeBullet 1 1, .update 30]).left = [1, 2] := by decide

end Halieutics
