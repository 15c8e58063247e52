/-
**Balanced services: `service/common/balanced.lua`.**

A balanced service is a set of slaves that take turns.  Whoever needs one says how many slaves it
should have; `balance.launch` starts those that are missing, and each start takes a while.  The set
of a new service gets its name only when all of its slaves have been started, so that another launch
of the same name begins a set of its own, and the one that ends last decides which set the name
stands for.  A set that has its name already grows slave by slave, and another launch counts the
slaves that are there and starts as many as it finds missing, although they may be on their way.

Two launches that do not overlap do not meet either problem.

Main definitions:

* `Halieutics.Balanced.Data` — the sets, the names, and what was asked for;
* `Halieutics.Balanced.launch`, `Halieutics.Balanced.launched`, `Halieutics.Balanced.balanceCall` —
  `balance.launch` up to a start and after it, and `balance.call` up to the call of the slave;
* `Halieutics.Balanced.machine` — the service as a machine;
* `Halieutics.Balanced.Complete` — **every service has as many slaves as the largest count, and they
  take turns**;
* `Halieutics.Balanced.Alone` — the condition: nobody else is launching the service.

Main results:

* `Halieutics.Balanced.callsFrom_eq` — **the slaves take turns**;
* `Halieutics.Balanced.Fits.step` — what the steps that meet the condition keep;
* `Halieutics.Balanced.complete_of_alone` — **the services are complete** in every run whose
  launches are alone;
* `Halieutics.Balanced.slave_lost` — two launches of one service at once.
-/

import Halieutics.Coroutine
import Halieutics.LuaTable

set_option relaxedAutoImplicit false
set_option autoImplicit false

namespace Halieutics.Balanced

open Coroutine LuaTable

/-! ### The service -/

/-- A `dbset`; slaves are known by their addresses. -/
structure DbSet where
  balance : ℕ := 0
  slave : List ℕ := []

/-- The sets there are, `data.services`, and how many services the node has.  `asked` has every name
that was launched, with the count. -/
structure Data where
  sets : ℕ → DbSet := fun _ => {}
  nset : ℕ := 0
  services : Table String ℕ := ∅
  nservice : ℕ := 0
  asked : List (String × ℤ) := []

/-- The yield of `balance.launch`, in `skynet.newservice`; `left` slaves are to be started
afterwards. -/
structure Pc where
  name : String
  dbset : ℕ
  left : ℕ

/-- A request to the service. -/
inductive Req where
  | launch (service : String) (name : Option String) (inst : Option ℤ)
  | call (name : String)

/-- The name of the set. -/
def setName (service : String) : Option String → String
  | none => service
  | some name => name ++ "." ++ service

/-- The set after a change. -/
def Data.update (d : Data) (id : ℕ) (s : DbSet) :
    Data := { d with sets := Function.update d.sets id s }

/-- The loop of `balance.launch` with so many slaves to start, up to the next start. -/
def launchLoop (d : Data) (name : String) (id : ℕ) : ℕ → Data × List Pc
  | 0 => ({ d with services := d.services.insert name id }, [])
  | left + 1 => (d, [⟨name, id, left⟩])

/-- **`balance.launch`** up to the first start. -/
def launch (d : Data) (service : String) (name : Option String) (inst : Option ℤ) :
    Data × List Pc :=
  let name := setName service name
  let count := inst.getD 1
  let d := { d with asked := (name, count) :: d.asked }
  match d.services.lookup name with
  | some id =>
      if count ≤ (d.sets id).slave.length then (d, [])
      else launchLoop d name id (count - (d.sets id).slave.length).toNat
  | none =>
      let id := d.nset
      launchLoop { (d.update id {}) with nset := d.nset + 1 } name id count.toNat

/-- `table.insert(dbset.slave, skynet.newservice(…))`. -/
def Data.insertSlave (d : Data) (id : ℕ) : Data :=
  { (d.update id { (d.sets id) with slave := (d.sets id).slave ++ [d.nservice] }) with
    nservice := d.nservice + 1 }

/-- `balance.launch` after a start. -/
def launched (d : Data) (pc : Pc) : Data × List Pc :=
  launchLoop (d.insertSlave pc.dbset) pc.name pc.dbset pc.left

/-- **`balance.call`** up to the call of the slave, which may be missing; nothing, if the assertion
fails. -/
def balanceCall (d : Data) (name : String) : Option (Data × Option ℕ) :=
  match d.services.lookup name with
  | none => none
  | some id =>
      let s := d.sets id
      let balance := if s.slave.length < s.balance + 1 then 1 else s.balance + 1
      some (d.update id { s with balance := balance }, s.slave[balance - 1]?)

/-- **The service as a machine.** -/
def machine : Machine Data Pc Req Unit where
  call d r _ :=
    match r with
    | .launch service name inst => launch d service name inst
    | .call name =>
        match balanceCall d name with
        | none => (d, [])
        | some r => (r.1, [])
  resume d pc _ := some (launched d pc)

abbrev Sys := Pool Data Pc

abbrev Ev := Coroutine.Event Req Unit

/-- Before the first request. -/
def start : Sys := ⟨{}, []⟩

/-- So many calls, one after the other, and the slaves they choose. -/
def callsFrom (d : Data) (name : String) : ℕ → Option (List (Option ℕ))
  | 0 => some []
  | k + 1 => (balanceCall d name).bind fun r => (callsFrom r.1 name k).map fun l => r.2 :: l

/-! ### What the service is for -/

/-- The largest count that was asked for. -/
def Largest (asked : List (String × ℤ)) (name : String) (n : ℤ) : Prop :=
  (name, n) ∈ asked ∧ ∀ m, (name, m) ∈ asked → m ≤ n

/-- **Every service has as many slaves as the largest count, and they take turns**, when all
launches have returned. -/
def Complete (s : Sys) : Prop :=
  s.cos = [] → ∀ name, (∃ n, (name, n) ∈ s.shared.asked) →
    ∃ id, s.shared.services.lookup name = some id ∧
      Largest s.shared.asked name (s.shared.sets id).slave.length ∧
      (s.shared.sets id).slave.Nodup ∧ 0 < (s.shared.sets id).slave.length ∧
      ∀ k, callsFrom s.shared name k = some ((List.range k).map fun i =>
        (s.shared.sets id).slave[((s.shared.sets id).balance + i) %
          (s.shared.sets id).slave.length]?)

/-- The name has a set with so many slaves. -/
def Served (d : Data) (name : String) (count : ℤ) : Prop :=
  ∃ id ∈ d.services.lookup name, count ≤ (d.sets id).slave.length

instance (d : Data) (name : String) (count : ℤ) : Decidable (Served d name count) := by
  unfold Served
  infer_instance

/-- **The condition**: a launch that is to start a slave asks for one at least, and nobody else is
launching the service. -/
def Alone (s : Sys) : Ev → Prop
  | .call (.launch service name inst) _ =>
      Served s.shared (setName service name) (inst.getD 1) ∨
        1 ≤ inst.getD 1 ∧ ∀ pc ∈ s.cos, pc.name ≠ setName service name
  | .call (.call _) _ => True
  | .resume _ _ => True

instance (s : Sys) (e : Ev) : Decidable (Alone s e) := by
  unfold Alone
  split <;> infer_instance

/-- Any step. -/
def Any (_ : Sys) (_ : Ev) : Prop := True

instance (s : Sys) (e : Ev) : Decidable (Any s e) := inferInstanceAs (Decidable True)

/-! ### The slaves take turns -/

/-- What a call does to a set. -/
theorem balanceCall_eq {d : Data} {name : String} {id : ℕ} (h : d.services.lookup name = some id)
    (hb : (d.sets id).balance ≤ (d.sets id).slave.length) :
    balanceCall d name = some
      (d.update id ⟨(d.sets id).balance % (d.sets id).slave.length + 1, (d.sets id).slave⟩,
        (d.sets id).slave[(d.sets id).balance % (d.sets id).slave.length]?) := by
  have hnext : (if (d.sets id).slave.length < (d.sets id).balance + 1 then 1
      else (d.sets id).balance + 1) = (d.sets id).balance % (d.sets id).slave.length + 1 := by
    split
    · rw [show (d.sets id).balance = (d.sets id).slave.length by omega, Nat.mod_self]
    · rw [Nat.mod_eq_of_lt (by omega)]
  rw [balanceCall]
  simp only [h, hnext]
  rfl

/-- **The slaves take turns.** -/
theorem callsFrom_eq {d : Data} {name : String} {id : ℕ} {s : DbSet}
    (h : d.services.lookup name = some id) (hs : d.sets id = s) (hb : s.balance ≤ s.slave.length)
    (hpos : 0 < s.slave.length) (k : ℕ) :
    callsFrom d name k =
      some ((List.range k).map fun i => s.slave[(s.balance + i) % s.slave.length]?) := by
  subst hs
  induction k generalizing d with
  | zero => rfl
  | succ k ih =>
      have hset : (d.update id ⟨(d.sets id).balance % (d.sets id).slave.length + 1,
          (d.sets id).slave⟩).sets id =
            ⟨(d.sets id).balance % (d.sets id).slave.length + 1, (d.sets id).slave⟩ :=
        Function.update_self ..
      have hrest := ih (d := d.update id ⟨_, (d.sets id).slave⟩) h
        (by rw [hset]; exact Nat.mod_lt _ hpos) (by rw [hset]; exact hpos)
      rw [hset] at hrest
      rw [callsFrom, balanceCall_eq h hb, Option.bind_some, hrest, Option.map_some,
        List.range_succ_eq_map, List.map_cons, List.map_map, Nat.add_zero]
      refine congrArg some (congrArg _ (List.map_congr_left fun i _ => ?_))
      show (d.sets id).slave[((d.sets id).balance % (d.sets id).slave.length + 1 + i) %
        (d.sets id).slave.length]? = _
      rw [Nat.add_assoc, Nat.mod_add_mod, Nat.add_comm 1 i]
      rfl

/-! ### Launches that are alone -/

/-- The set is the one of the name, or is being made for it. -/
def Uses (s : Sys) (name : String) (id : ℕ) : Prop :=
  s.shared.services.lookup name = some id ∨ ∃ pc ∈ s.cos, pc.name = name ∧ pc.dbset = id

/-- **What the steps keep**: at most one launch of each name is under way, with a set that no other
name has, and it will leave the set with the largest count; and a name that nobody is launching has
a set with as many slaves. -/
structure Fits (s : Sys) : Prop where
  nodup : (s.cos.map Pc.name).Nodup
  apart : ∀ name name' id, Uses s name id → Uses s name' id → name = name'
  one : ∀ name id id', Uses s name id → Uses s name id' → id = id'
  old : ∀ name id, Uses s name id → id < s.shared.nset
  busy : ∀ pc ∈ s.cos, Largest s.shared.asked pc.name
    ((s.shared.sets pc.dbset).slave.length + (pc.left + 1))
  shown : ∀ name id, s.shared.services.lookup name = some id →
    (∃ n, (name, n) ∈ s.shared.asked) ∧ 0 < (s.shared.sets id).slave.length
  idle : ∀ name, (∀ pc ∈ s.cos, pc.name ≠ name) → (∃ n, (name, n) ∈ s.shared.asked) →
    ∃ id, s.shared.services.lookup name = some id ∧
      Largest s.shared.asked name (s.shared.sets id).slave.length
  balance : ∀ id, (s.shared.sets id).balance ≤ (s.shared.sets id).slave.length
  slaves : ∀ id, (s.shared.sets id).slave.Nodup ∧ ∀ v ∈ (s.shared.sets id).slave,
    v < s.shared.nservice

theorem not_uses_start (name : String) (id : ℕ) : ¬ Uses start name id := by
  rintro (h | ⟨pc, hpc, -⟩)
  · cases h
  · exact absurd hpc List.not_mem_nil

theorem fits_start : Fits start where
  nodup := List.nodup_nil
  apart name _ id h := absurd h (not_uses_start name id)
  one name id _ h := absurd h (not_uses_start name id)
  old name id h := absurd h (not_uses_start name id)
  busy pc h := absurd h List.not_mem_nil
  shown name id h := absurd (Or.inl h) (not_uses_start name id)
  idle name _ h := by
    obtain ⟨n, hn⟩ := h
    exact absurd hn List.not_mem_nil
  balance id := le_rfl
  slaves id := ⟨List.nodup_nil, fun v hv => absurd hv List.not_mem_nil⟩

section Largest

variable {asked : List (String × ℤ)} {name name' : String} {n m : ℤ}

theorem Largest.cons_of_le (h : Largest asked name n) (hm : m ≤ n) :
    Largest ((name, m) :: asked) name n := by
  refine ⟨List.mem_cons_of_mem _ h.1, fun k hk => ?_⟩
  rcases List.mem_cons.1 hk with he | hk
  · rw [(Prod.mk.inj he).2]
    exact hm
  · exact h.2 k hk

theorem Largest.cons_of_ne (h : Largest asked name n) (hne : name ≠ name') :
    Largest ((name', m) :: asked) name n := by
  refine ⟨List.mem_cons_of_mem _ h.1, fun k hk => ?_⟩
  rcases List.mem_cons.1 hk with he | hk
  · exact absurd (Prod.mk.inj he).1 hne
  · exact h.2 k hk

theorem largest_new (h : ∀ k, (name, k) ∈ asked → k ≤ n) : Largest ((name, n) :: asked) name n := by
  refine ⟨List.mem_cons_self, fun k hk => ?_⟩
  rcases List.mem_cons.1 hk with he | hk
  · rw [(Prod.mk.inj he).2]
  · exact h k hk

end Largest

section Steps

variable {s : Sys} {name : String} {id : ℕ}

/-- **A call** changes the counter of a set. -/
theorem Fits.call (h : Fits s) (hid : s.shared.services.lookup name = some id) :
    Fits ⟨s.shared.update id ⟨(s.shared.sets id).balance % (s.shared.sets id).slave.length + 1,
      (s.shared.sets id).slave⟩, s.cos⟩ := by
  have hpos := (h.shown name id hid).2
  generalize hd : s.shared.update id
    ⟨(s.shared.sets id).balance % (s.shared.sets id).slave.length + 1,
    (s.shared.sets id).slave⟩ = d
  have hset : ∀ i, (d.sets i).slave = (s.shared.sets i).slave ∧
      (d.sets i).balance ≤ (s.shared.sets i).slave.length := by
    intro i
    subst hd
    by_cases hi : i = id
    · have hself : (s.shared.update id ⟨(s.shared.sets id).balance %
          (s.shared.sets id).slave.length + 1, (s.shared.sets id).slave⟩).sets id = _ :=
        Function.update_self ..
      rw [hi, hself]
      exact ⟨rfl, Nat.mod_lt _ hpos⟩
    · have hother : (s.shared.update id ⟨(s.shared.sets id).balance %
          (s.shared.sets id).slave.length + 1, (s.shared.sets id).slave⟩).sets i =
          s.shared.sets i :=
        Function.update_of_ne hi ..
      rw [hother]
      exact ⟨rfl, h.balance i⟩
  have hasked : d.asked = s.shared.asked := by rw [← hd]; rfl
  have hservices : d.services = s.shared.services := by rw [← hd]; rfl
  have hnset : d.nset = s.shared.nset := by rw [← hd]; rfl
  have hnservice : d.nservice = s.shared.nservice := by rw [← hd]; rfl
  have huses : ∀ n i, Uses ⟨d, s.cos⟩ n i ↔ Uses s n i := fun n i => by
    rw [Uses, Uses, hservices]
  constructor
  case nodup => exact h.nodup
  case apart => simpa only [huses] using h.apart
  case one => simpa only [huses] using h.one
  case old => simpa only [huses, hnset] using h.old
  case busy => simpa only [hasked, hset] using h.busy
  case shown => simpa only [hservices, hasked, hset] using h.shown
  case idle => simpa only [hservices, hasked, hset] using h.idle
  case balance => simpa only [hset] using fun i => (hset i).2
  case slaves => simpa only [hset, hnservice] using h.slaves

/-- **A launch that finds enough slaves.** -/
theorem Fits.served (h : Fits s) {n : ℤ} (hn : Served s.shared name n) :
    Fits ⟨{ s.shared with asked := (name, n) :: s.shared.asked }, s.cos⟩ := by
  obtain ⟨id, hid, hle⟩ := hn
  refine ⟨h.nodup, h.apart, h.one, h.old, fun pc hpc => ?_, fun n' i hi => ?_,
    fun n' hfree ha => ?_,
    h.balance, h.slaves⟩
  · have hbusy := h.busy pc hpc
    by_cases hname : pc.name = name
    · have hset : pc.dbset = id := h.one name _ _ (Or.inr ⟨pc, hpc, hname, rfl⟩) (Or.inl hid)
      rw [hset] at hbusy
      show Largest _ _ _
      rw [hset, hname]
      rw [hname] at hbusy
      exact hbusy.cons_of_le (by omega)
    · exact hbusy.cons_of_ne hname
  · obtain ⟨⟨m, hm⟩, hpos⟩ := h.shown n' i hi
    exact ⟨⟨m, List.mem_cons_of_mem _ hm⟩, hpos⟩
  · by_cases hname : n' = name
    · subst hname
      obtain ⟨i, hi, hl⟩ := h.idle n' hfree (h.shown n' id hid).1
      obtain rfl : i = id := Option.some_inj.1 (hi.symm.trans hid)
      exact ⟨i, hi, hl.cons_of_le hle⟩
    · obtain ⟨m, hm⟩ := ha
      rcases List.mem_cons.1 hm with he | hm
      · exact absurd (Prod.mk.inj he).1 hname
      · obtain ⟨i, hi, hl⟩ := h.idle n' hfree ⟨m, hm⟩
        exact ⟨i, hi, hl.cons_of_ne hname⟩

/-- A new set that nobody uses. -/
theorem Fits.alloc (h : Fits s) :
    Fits ⟨{ (s.shared.update s.shared.nset {}) with nset := s.shared.nset + 1 }, s.cos⟩ := by
  have hset : ∀ i, (s.shared.update s.shared.nset {}).sets i =
      if i = s.shared.nset then {} else s.shared.sets i := fun i => Function.update_apply ..
  have hsame : ∀ n i, Uses s n i → (s.shared.update s.shared.nset {}).sets i = s.shared.sets i :=
    fun n i hi => (hset i).trans (if_neg (h.old n i hi).ne)
  refine ⟨h.nodup, h.apart, h.one, fun n i hi => Nat.lt_succ_of_lt (h.old n i hi), fun pc hpc => ?_,
    fun n i hi => ?_, fun n hfree ha => ?_, fun i => ?_, fun i => ?_⟩
  · show Largest s.shared.asked pc.name (((s.shared.update _ _).sets pc.dbset).slave.length + _)
    rw [hsame pc.name _ (Or.inr ⟨pc, hpc, rfl, rfl⟩)]
    exact h.busy pc hpc
  · show _ ∧ 0 < ((s.shared.update _ _).sets i).slave.length
    rw [hsame n i (Or.inl hi)]
    exact h.shown n i hi
  · obtain ⟨i, hi, hl⟩ := h.idle n hfree ha
    refine ⟨i, hi, ?_⟩
    show Largest s.shared.asked n ((s.shared.update _ _).sets i).slave.length
    rwa [hsame n i (Or.inl hi)]
  · show ((s.shared.update _ _).sets i).balance ≤ ((s.shared.update _ _).sets i).slave.length
    rw [hset]
    split
    · exact le_rfl
    · exact h.balance i
  · show ((s.shared.update _ _).sets i).slave.Nodup ∧ ∀ v ∈ ((s.shared.update _ _).sets i).slave, _
    rw [hset]
    split
    · exact ⟨List.nodup_nil, fun v hv => absurd hv List.not_mem_nil⟩
    · exact h.slaves i

/-- **A launch that is to start slaves.** -/
theorem Fits.enter (h : Fits s) {n : ℤ} {left : ℕ} (hfree : ∀ pc ∈ s.cos, pc.name ≠ name)
    (hold : id < s.shared.nset) (hown : ∀ name', Uses s name' id → name' = name)
    (hone : ∀ id', Uses s name id' → id' = id)
    (hn : (s.shared.sets id).slave.length + ((left : ℤ) + 1) = n)
    (hmax : ∀ m, (name, m) ∈ s.shared.asked → m ≤ n) :
    Fits ⟨{ s.shared with asked := (name, n) :: s.shared.asked }, s.cos ++ [⟨name, id, left⟩]⟩ := by
  have huses : ∀ n' i, Uses ⟨{ s.shared with asked := (name, n) :: s.shared.asked },
      s.cos ++ [⟨name, id, left⟩]⟩ n' i → Uses s n' i ∨ n' = name ∧ i = id := by
    rintro n' i (hi | ⟨pc, hpc, hname, hi⟩)
    · exact Or.inl (Or.inl hi)
    · rcases List.mem_append.1 hpc with hpc | hpc
      · exact Or.inl (Or.inr ⟨pc, hpc, hname, hi⟩)
      · obtain rfl := List.mem_singleton.1 hpc
        exact Or.inr ⟨hname.symm, hi.symm⟩
  refine ⟨?_, fun n₁ n₂ i h₁ h₂ => ?_, fun n' i₁ i₂ h₁ h₂ => ?_, fun n' i hi => ?_,
    fun pc hpc => ?_,
    fun n' i hi => ?_, fun n' hout ha => ?_, h.balance, h.slaves⟩
  · rw [List.map_append, List.nodup_append]
    refine ⟨h.nodup, List.nodup_singleton _, fun a ha b hb => ?_⟩
    obtain ⟨pc, hpc, rfl⟩ := List.mem_map.1 ha
    rw [List.mem_singleton.1 hb]
    exact hfree pc hpc
  · rcases huses _ _ h₁ with hu₁ | ⟨hn₁, hi⟩
    · rcases huses _ _ h₂ with hu₂ | ⟨hn₂, hi⟩
      · exact h.apart _ _ _ hu₁ hu₂
      · rw [hn₂]
        exact hown _ (hi ▸ hu₁)
    · rcases huses _ _ h₂ with hu₂ | ⟨hn₂, -⟩
      · rw [hn₁]
        exact (hown _ (hi ▸ hu₂)).symm
      · rw [hn₁, hn₂]
  · rcases huses _ _ h₁ with hu₁ | ⟨hn', hi₁⟩
    · rcases huses _ _ h₂ with hu₂ | ⟨hn', hi₂⟩
      · exact h.one _ _ _ hu₁ hu₂
      · rw [hi₂]
        exact hone _ (hn' ▸ hu₁)
    · rcases huses _ _ h₂ with hu₂ | ⟨-, hi₂⟩
      · rw [hi₁]
        exact (hone _ (hn' ▸ hu₂)).symm
      · rw [hi₁, hi₂]
  · rcases huses _ _ hi with hi | ⟨-, rfl⟩
    · exact h.old _ _ hi
    · exact hold
  · rcases List.mem_append.1 hpc with hpc | hpc
    · exact (h.busy pc hpc).cons_of_ne (hfree pc hpc)
    · obtain rfl := List.mem_singleton.1 hpc
      show Largest _ name (((s.shared.sets id).slave.length : ℤ) + (left + 1))
      rw [hn]
      exact largest_new hmax
  · obtain ⟨⟨m, hm⟩, hpos⟩ := h.shown n' i hi
    exact ⟨⟨m, List.mem_cons_of_mem _ hm⟩, hpos⟩
  · have hne : n' ≠ name := fun he =>
      hout ⟨name, id, left⟩ (List.mem_append_right _ (List.mem_singleton.2 rfl)) he.symm
    obtain ⟨m, hm⟩ := ha
    rcases List.mem_cons.1 hm with he | hm
    · exact absurd (Prod.mk.inj he).1 hne
    · obtain ⟨i, hi, hl⟩ := h.idle n' (fun pc hpc => hout pc (List.mem_append_left _ hpc)) ⟨m, hm⟩
      exact ⟨i, hi, hl.cons_of_ne hne⟩

/-- **A launch that is alone.** -/
theorem Fits.launch (h : Fits s) {service : String} {o : Option String} {inst : Option ℤ}
    (hc : Served s.shared (setName service o) (inst.getD 1) ∨
      1 ≤ inst.getD 1 ∧ ∀ pc ∈ s.cos, pc.name ≠ setName service o) :
    Fits ⟨(Balanced.launch s.shared service o inst).1,
      s.cos ++ (Balanced.launch s.shared service o inst).2⟩ := by
  rw [Balanced.launch]
  generalize setName service o = name at hc ⊢
  generalize inst.getD 1 = n at hc ⊢
  by_cases hserved : Served s.shared name n
  · have hfits := h.served hserved
    obtain ⟨id, hid, hle⟩ := hserved
    simp only [Option.mem_def.1 hid, if_pos hle, List.append_nil]
    exact hfits
  obtain ⟨hpos, hfree⟩ := hc.resolve_left hserved
  cases hlook : s.shared.services.lookup name with
  | some id =>
      have hlt : ¬ n ≤ (s.shared.sets id).slave.length := fun hle => hserved ⟨id, hlook, hle⟩
      obtain ⟨left, hleft⟩ := Nat.exists_eq_succ_of_ne_zero
        (by omega : (n - (s.shared.sets id).slave.length).toNat ≠ 0)
      obtain ⟨i, hi, hl⟩ := h.idle name hfree (h.shown name id hlook).1
      obtain rfl : i = id := Option.some_inj.1 (hi.symm.trans hlook)
      simp only [if_neg hlt, hleft, launchLoop]
      exact h.enter hfree (h.old name i (Or.inl hlook))
        (fun name' hu => h.apart _ _ _ hu (Or.inl hlook))
        (fun id' hu => h.one _ _ _ hu (Or.inl hlook))
        (by omega) fun m hm => (hl.2 m hm).trans (by omega)
  | none =>
      obtain ⟨left, hleft⟩ := Nat.exists_eq_succ_of_ne_zero (by omega : n.toNat ≠ 0)
      have hno : ∀ i, ¬ Uses s name i := by
        rintro i (hi | ⟨pc, hpc, hname, -⟩)
        · cases hlook.symm.trans hi
        · exact hfree pc hpc hname
      have hasked : ∀ m, (name, m) ∉ s.shared.asked := by
        intro m hm
        obtain ⟨i, hi, -⟩ := h.idle name hfree ⟨m, hm⟩
        exact hno i (Or.inl hi)
      have hnew : (s.shared.update s.shared.nset {}).sets s.shared.nset = {} :=
        Function.update_self ..
      simp only [hleft, launchLoop]
      exact h.alloc.enter hfree (Nat.lt_succ_self _)
        (fun name' hu => absurd (h.old name' _ hu) (lt_irrefl _)) (fun i hu => absurd hu (hno i))
        (by
          show (((s.shared.update _ _).sets _).slave.length : ℤ) + _ = n
          rw [hnew]
          show (0 : ℤ) + _ = n
          omega)
        fun m hm => absurd hm (hasked m)

/-- The sets after a start. -/
theorem sets_insertSlave (d : Data) (id i : ℕ) : (d.insertSlave id).sets i =
    if i = id then { (d.sets id) with slave := (d.sets id).slave ++ [d.nservice] } else d.sets i :=
  Function.update_apply ..

theorem slaves_insertSlave {d : Data}
    (h : ∀ i, (d.sets i).slave.Nodup ∧ ∀ v ∈ (d.sets i).slave, v < d.nservice) (id i : ℕ) :
    ((d.insertSlave id).sets i).slave.Nodup ∧
      ∀ v ∈ ((d.insertSlave id).sets i).slave, v < d.nservice + 1 := by
  obtain ⟨hnodup, hlt⟩ := h i
  rw [sets_insertSlave]
  split
  · rename_i hi
    subst hi
    refine ⟨List.nodup_append.2 ⟨hnodup, List.nodup_singleton _, fun a ha b hb => ?_⟩,
      fun v hv => ?_⟩
    · rw [List.mem_singleton.1 hb]
      exact (hlt a ha).ne
    · rcases List.mem_append.1 hv with hv | hv
      · exact Nat.lt_succ_of_lt (hlt v hv)
      · rw [List.mem_singleton.1 hv]
        exact Nat.lt_succ_self _
  · exact ⟨hnodup, fun v hv => Nat.lt_succ_of_lt (hlt v hv)⟩

theorem balance_insertSlave {d : Data} (h : ∀ i, (d.sets i).balance ≤ (d.sets i).slave.length)
    (id i : ℕ) :
    ((d.insertSlave id).sets i).balance ≤ ((d.insertSlave id).sets i).slave.length := by
  rw [sets_insertSlave]
  split
  · rw [List.length_append]
    exact (h id).trans (Nat.le_add_right _ _)
  · exact h i

/-- **A start**: the next one follows, or the set gets its name. -/
theorem Fits.launched {l r : List Pc} {pc : Pc} (h : Fits s) (hcos : s.cos = l ++ pc :: r) :
    Fits ⟨(Balanced.launched s.shared pc).1, l ++ (Balanced.launched s.shared pc).2 ++ r⟩ := by
  have hmem : pc ∈ s.cos := by simp [hcos]
  have hrest : ∀ pc' ∈ l ++ r, pc' ∈ s.cos := fun pc' hpc' => by
    rw [hcos]
    exact Machine.mem_of_mem_rest hpc'
  have hnames : (pc.name :: (l ++ r).map Pc.name).Nodup := by
    have hperm : (s.cos.map Pc.name).Perm ((pc :: (l ++ r)).map Pc.name) := by
      rw [hcos]
      exact List.perm_middle.map _
    exact hperm.nodup_iff.1 h.nodup
  have hother : ∀ pc' ∈ l ++ r, pc'.name ≠ pc.name := fun pc' hpc' he =>
    (List.nodup_cons.1 hnames).1 (he ▸ List.mem_map_of_mem hpc')
  have hpc : Uses s pc.name pc.dbset := Or.inr ⟨pc, hmem, rfl, rfl⟩
  -- the sets of the other names
  have hkept : ∀ n i, Uses s n i → n ≠ pc.name →
      (s.shared.insertSlave pc.dbset).sets i = s.shared.sets i := by
    intro n i hu hn
    rw [sets_insertSlave, if_neg fun he : i = pc.dbset => hn (h.apart n pc.name i hu (he ▸ hpc))]
  have hgrown : ((s.shared.insertSlave pc.dbset).sets pc.dbset).slave.length =
      (s.shared.sets pc.dbset).slave.length + 1 := by
    rw [sets_insertSlave, if_pos rfl, List.length_append, List.length_singleton]
  have hbusy : ∀ pc' ∈ l ++ r, Largest s.shared.asked pc'.name
      (((s.shared.insertSlave pc.dbset).sets pc'.dbset).slave.length + (pc'.left + 1)) := by
    intro pc' hpc'
    rw [hkept pc'.name _ (Or.inr ⟨pc', hrest pc' hpc', rfl, rfl⟩) (hother pc' hpc')]
    exact h.busy pc' (hrest pc' hpc')
  have hlarge := h.busy pc hmem
  have hshown : ∀ n i, s.shared.services.lookup n = some i → (∃ m, (n, m) ∈ s.shared.asked) ∧
      0 < ((s.shared.insertSlave pc.dbset).sets i).slave.length := by
    intro n i hi
    refine ⟨(h.shown n i hi).1, ?_⟩
    by_cases he : i = pc.dbset
    · rw [he, hgrown]
      exact Nat.succ_pos _
    · rw [sets_insertSlave, if_neg he]
      exact (h.shown n i hi).2
  have hidle : ∀ n, (∀ pc' ∈ l ++ r, pc'.name ≠ n) → n ≠ pc.name → (∃ m, (n, m) ∈ s.shared.asked) →
      ∃ i, s.shared.services.lookup n = some i ∧ Largest s.shared.asked n
        ((s.shared.insertSlave pc.dbset).sets i).slave.length := by
    intro n hfree hn ha
    obtain ⟨i, hi, hl⟩ := h.idle n (fun pc' hpc' => by
      rw [hcos] at hpc'
      rcases List.mem_append.1 hpc' with hpc' | hpc'
      · exact hfree pc' (List.mem_append_left _ hpc')
      · rcases List.mem_cons.1 hpc' with rfl | hpc'
        · exact hn.symm
        · exact hfree pc' (List.mem_append_right _ hpc')) ha
    refine ⟨i, hi, ?_⟩
    rwa [hkept n i (Or.inl hi) hn]
  have hslaves := slaves_insertSlave h.slaves pc.dbset
  have hbalance := balance_insertSlave h.balance pc.dbset
  rw [Balanced.launched]
  cases hleft : pc.left with
  | zero =>
      -- the set gets its name
      rw [launchLoop, List.append_nil]
      have huses : ∀ n i, Uses ⟨{ s.shared.insertSlave pc.dbset with
          services := s.shared.services.insert pc.name pc.dbset }, l ++ r⟩ n i → Uses s n i := by
        rintro n i (hi | ⟨pc', hpc', hn, hi⟩)
        · have hi : (s.shared.services.insert pc.name pc.dbset).lookup n = some i := hi
          rw [lookup_insert_eq] at hi
          split at hi
          · rename_i hn
            rw [hn, ← Option.some_inj.1 hi]
            exact hpc
          · exact Or.inl hi
        · exact Or.inr ⟨pc', hrest pc' hpc', hn, hi⟩
      refine ⟨(List.nodup_cons.1 hnames).2,
        fun n n' i h₁ h₂ => h.apart n n' i (huses _ _ h₁) (huses _ _ h₂),
        fun n i i' h₁ h₂ => h.one n i i' (huses _ _ h₁) (huses _ _ h₂),
        fun n i hi => h.old n i (huses _ _ hi), hbusy, fun n i hi => ?_,
        fun n hfree ha => ?_, hbalance,
        hslaves⟩
      · have hi : (s.shared.services.insert pc.name pc.dbset).lookup n = some i := hi
        rw [lookup_insert_eq] at hi
        split at hi
        · rename_i hn
          obtain rfl := Option.some_inj.1 hi
          rw [hn]
          refine ⟨⟨_, hlarge.1⟩, ?_⟩
          show 0 < ((s.shared.insertSlave pc.dbset).sets pc.dbset).slave.length
          rw [hgrown]
          exact Nat.succ_pos _
        · exact hshown n i hi
      · show ∃ i, (s.shared.services.insert pc.name pc.dbset).lookup n = some i ∧ _
        rw [lookup_insert_eq]
        by_cases hn : n = pc.name
        · refine ⟨pc.dbset, if_pos hn, ?_⟩
          show Largest s.shared.asked n ((s.shared.insertSlave pc.dbset).sets pc.dbset).slave.length
          rw [hgrown, hn, Nat.cast_succ]
          rw [hleft, Nat.cast_zero, zero_add] at hlarge
          exact hlarge
        · rw [if_neg hn]
          exact hidle n hfree hn ha
  | succ left =>
      rw [launchLoop]
      have huses : ∀ n i, Uses ⟨s.shared.insertSlave pc.dbset,
          l ++ [⟨pc.name, pc.dbset, left⟩] ++ r⟩ n i → Uses s n i := by
        rintro n i (hi | ⟨pc', hpc', hn, hi⟩)
        · exact Or.inl hi
        · rcases Machine.rest_or_left hpc' with hpc' | hpc'
          · exact Or.inr ⟨pc', hrest pc' hpc', hn, hi⟩
          · obtain rfl := List.mem_singleton.1 hpc'
            obtain rfl : pc.name = n := hn
            obtain rfl : pc.dbset = i := hi
            exact hpc
      refine ⟨?_, fun n n' i h₁ h₂ => h.apart n n' i (huses _ _ h₁) (huses _ _ h₂),
        fun n i i' h₁ h₂ => h.one n i i' (huses _ _ h₁) (huses _ _ h₂),
        fun n i hi => h.old n i (huses _ _ hi), fun pc' hpc' => ?_, hshown,
        fun n hfree ha => ?_, hbalance,
        hslaves⟩
      · refine ((Machine.perm_front l [⟨pc.name, pc.dbset, left⟩] r).map Pc.name).nodup_iff.2 ?_
        exact hnames
      · rcases Machine.rest_or_left hpc' with hpc' | hpc'
        · exact hbusy pc' hpc'
        · obtain rfl := List.mem_singleton.1 hpc'
          show Largest s.shared.asked pc.name
            ((((s.shared.insertSlave pc.dbset).sets pc.dbset).slave.length : ℤ) + (left + 1))
          rw [hgrown]
          rw [hleft] at hlarge
          push_cast at hlarge ⊢
          rwa [add_assoc, add_comm (1 : ℤ)]
      · refine hidle n (fun pc' hpc' => hfree pc' ?_) ?_ ha
        · rw [List.append_assoc]
          rcases List.mem_append.1 hpc' with hpc' | hpc'
          · exact List.mem_append_left _ hpc'
          · exact List.mem_append_right _ (List.mem_cons_of_mem _ hpc')
        · exact fun he => hfree ⟨pc.name, pc.dbset, left⟩ (by simp) he.symm

/-- **What the steps that meet the condition keep.** -/
theorem Fits.step {s' : Sys} {e : Ev} (h : Fits s) (hc : Alone s e)
    (he : machine.exec s e = some s') :
    Fits s' := by
  rcases Machine.exec_cases he with ⟨q, i, rfl, rfl⟩ | ⟨k, i, l, pc, r, out, rfl, -, hcos, ho, rfl⟩
  · cases q with
    | launch service name inst => exact h.launch hc
    | call name =>
        cases hlook : s.shared.services.lookup name with
        | none =>
            have hcall : machine.call s.shared (.call name) i = (s.shared, []) := by
              simp only [machine, balanceCall, hlook]
            rw [hcall, List.append_nil]
            exact h
        | some id =>
            have hcall : machine.call s.shared (.call name) i =
                (s.shared.update id
                ⟨(s.shared.sets id).balance % (s.shared.sets id).slave.length + 1,
                  (s.shared.sets id).slave⟩, []) := by
              simp only [machine, balanceCall_eq hlook (h.balance id)]
            rw [hcall, List.append_nil]
            exact h.call hlook
  · obtain rfl := Option.some_inj.1 ho
    exact h.launched hcos

end Steps

/-! ### Runs -/

theorem Fits.complete {s : Sys} (h : Fits s) : Complete s := by
  intro hcos name ha
  obtain ⟨id, hid, hl⟩ := h.idle name (fun pc hpc => absurd (hcos ▸ hpc) List.not_mem_nil) ha
  have hpos := (h.shown name id hid).2
  exact ⟨id, hid, hl, (h.slaves id).1, hpos, callsFrom_eq hid rfl (h.balance id) hpos⟩

/-- **The services are complete** in every run whose launches are alone. -/
theorem complete_of_alone {s : Sys} (h : machine.Reach Alone start s) : Complete s :=
  (h.inv fits_start fun _ _ _ hs hc he => hs.step hc he).complete

/-- Two slaves, and then one more. -/
def oneByOne : List Ev :=
  [.call (.launch "auth" none (some 2)) (), .resume 0 (),
    .call (.launch "userdb" (some "fish") none) (),
    .resume 0 (), .call (.call "auth") (), .resume 0 (), .call (.launch "auth" none (some 3)) (),
    .resume 0 ()]

theorem complete_oneByOne : ∃ s, machine.Reach Alone start s ∧ s.cos = [] ∧ Complete s := by
  obtain ⟨s, hs, hp⟩ := Machine.exists_reach (M := machine) (C := Alone) (i := start) oneByOne
    (p := fun s => decide (s.cos.length = 0)) (by decide +kernel)
  exact ⟨s, hs, List.length_eq_zero_iff.1 (of_decide_eq_true hp), complete_of_alone hs⟩

/-- **A slave is lost**: one launch asks for two slaves and another for one, and the second one
gives its set the name last. -/
theorem slave_lost : ∃ s, machine.Reach Any start s ∧ ¬ Complete s := by
  obtain ⟨s, hs, hp⟩ := Machine.exists_reach (M := machine) (C := Any) (i := start)
    [.call (.launch "auth" none (some 2)) (), .call (.launch "auth" none (some 1)) (), .resume 0 (),
      .resume 0 (), .resume 0 ()]
    (p := fun s => decide (s.cos.length = 0 ∧ ("auth", (2 : ℤ)) ∈ s.shared.asked ∧
      (s.shared.services.lookup "auth").all fun id => (s.shared.sets id).slave.length = 1))
    (by decide +kernel)
  obtain ⟨hcos, ha, hone⟩ := of_decide_eq_true hp
  refine ⟨s, hs, fun h => ?_⟩
  obtain ⟨id, hid, hl, -⟩ := h (List.length_eq_zero_iff.1 hcos) "auth" ⟨2, ha⟩
  rw [hid] at hone
  have hle := hl.2 2 ha
  have hlen : (s.shared.sets id).slave.length = 1 := of_decide_eq_true hone
  omega

end Halieutics.Balanced
