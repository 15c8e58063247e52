/-
**Services that are launched once: `service.xlaunch` of `lualib/common/service.lua`.**

The watchdog and the lobby of an app are found by a name that is local to the node.  Whoever needs
one of them looks the name up; if it is not taken, he launches the service and gives it the name.
The launch takes as long as the start-up of the service takes, and during that time every other
service, the new one included, may look the name up as well.  A name that is taken stays with its
service: `skynet.name` has no effect then, but the service that was launched for it remains.

Main definitions:

* `Halieutics.Xlaunch.Node` — the names of a node, and what was launched and returned;
* `Halieutics.Xlaunch.machine` — **the calls of `service.xlaunch` as a machine**;
* `Halieutics.Xlaunch.Single` — **all callers have the same service**;
* `Halieutics.Xlaunch.Untaken` — the condition: a launch ends before anybody else has named a
  service so.

Main results:

* `Halieutics.Xlaunch.single_step` — as long as the condition holds, the service that has the name
  is the only one;
* `Halieutics.Xlaunch.single_iff` — **a run keeps the services single exactly if each of its steps
  meets the condition**;
* `Halieutics.Xlaunch.two_watchdogs` — a gate and an agent launch a watchdog each.
-/

import Halieutics.Coroutine
import Halieutics.LuaTable

set_option relaxedAutoImplicit false
set_option autoImplicit false

namespace Halieutics.Xlaunch

open Coroutine LuaTable

/-! ### The calls -/

/-- The names of a node.  Services are numbered in the order in which their launch ends; `launched`
and `returned` say which service was launched for which name, and which one `xlaunch` returned to
its caller. -/
structure Node where
  names : Table String ℕ := ∅
  nservice : ℕ := 0
  launched : List (String × ℕ) := []
  returned : List (String × ℕ) := []

/-- `string.format(".%s_%s", name, class)`. -/
def localName (name cls : String) : String := "." ++ name ++ "_" ++ cls

/-- The yield of `xlaunch`, in `skynet.newservice`. -/
inductive Pc where
  | newservice (lname : String)

/-- A call of `service.xlaunch`. -/
inductive Req where
  | xlaunch (name cls : String)

/-- How `skynet.newservice` ends: it raises if the start-up of the service fails. -/
structure Inp where
  raised : Bool := false

/-- `skynet.name`: a name that is taken stays. -/
def Node.name (g : Node) (lname : String) (s : ℕ) : Node :=
  match g.names.lookup lname with
  | some _ => g
  | none => { g with names := g.names.insert lname s }

/-- **`service.xlaunch`** up to `skynet.newservice`. -/
def xlaunch (g : Node) (name cls : String) : Node × List Pc :=
  let lname := localName name cls
  match g.names.lookup lname with
  | some s => ({ g with returned := (lname, s) :: g.returned }, [])
  | none => (g, [.newservice lname])

/-- `service.xlaunch` after `skynet.newservice`. -/
def named (g : Node) (lname : String) : Node :=
  let s := g.nservice
  ({ g with
    nservice := g.nservice + 1
    launched := (lname, s) :: g.launched
    returned := (lname, s) :: g.returned } : Node).name lname s

/-- **The calls as a machine.** -/
def machine : Machine Node Pc Req Inp where
  call g r _ :=
    match r with
    | .xlaunch name cls => xlaunch g name cls
  resume g pc inp :=
    match pc with
    | .newservice lname => some (if inp.raised then g else named g lname, [])

abbrev Sys := Pool Node Pc

abbrev Ev := Coroutine.Event Req Inp

/-- Before the first call. -/
def start : Sys := ⟨{}, []⟩

/-! ### One service for each name -/

/-- **All callers have the same service**, and no other was launched for the name. -/
structure Single (g : Node) : Prop where
  same : ∀ lname s s', (lname, s) ∈ g.returned → (lname, s') ∈ g.returned → s = s'
  one : ∀ lname s s', (lname, s) ∈ g.launched → (lname, s') ∈ g.launched → s = s'

/-- **The condition**: when a launch ends, nobody has named a service so since the caller looked the
name up. -/
def Untaken (s : Sys) : Ev → Prop
  | .call _ _ => True
  | .resume k inp =>
      match s.cos[k]? with
      | some (.newservice lname) => inp.raised = true ∨ s.shared.names.lookup lname = none
      | none => True

instance (s : Sys) (e : Ev) : Decidable (Untaken s e) := by
  unfold Untaken
  split
  · infer_instance
  · split <;> infer_instance

/-- Any step. -/
def Any (_ : Sys) (_ : Ev) : Prop := True

instance (s : Sys) (e : Ev) : Decidable (Any s e) := inferInstanceAs (Decidable True)

/-- A name belongs to a service that was launched for it and returned. -/
def Owned (g : Node) : Prop :=
  ∀ lname s, g.names.lookup lname = some s →
    s < g.nservice ∧ (lname, s) ∈ g.launched ∧ (lname, s) ∈ g.returned

/-- Whatever was launched or returned has the name. -/
structure Holds (g : Node) : Prop where
  launched : ∀ lname s, (lname, s) ∈ g.launched → g.names.lookup lname = some s
  returned : ∀ lname s, (lname, s) ∈ g.returned → g.names.lookup lname = some s

theorem Holds.single {g : Node} (h : Holds g) : Single g where
  same := fun lname _ _ hs hs' =>
    Option.some_inj.1 ((h.returned lname _ hs).symm.trans (h.returned lname _ hs'))
  one := fun lname _ _ hs hs' =>
    Option.some_inj.1 ((h.launched lname _ hs).symm.trans (h.launched lname _ hs'))

/-- **What a step is**: a caller finds the name, a caller starts a launch, a launch fails, or a
launch ends. -/
theorem step_cases {s s' : Sys} {e : Ev} (h : machine.exec s e = some s') :
    (∃ lname v, s.shared.names.lookup lname = some v ∧ Untaken s e ∧
      s'.shared = { s.shared with returned := (lname, v) :: s.shared.returned }) ∨
    (Untaken s e ∧ s'.shared = s.shared) ∨
    ∃ lname, s'.shared = named s.shared lname ∧
      (Untaken s e ↔ s.shared.names.lookup lname = none) := by
  rcases Machine.exec_cases h with
    ⟨⟨name, cls⟩, i, rfl, rfl⟩ | ⟨k, i, l, t, r, out, rfl, hk, -, ho, rfl⟩
  · unfold machine xlaunch
    dsimp only
    cases hl : s.shared.names.lookup (localName name cls) with
    | some v => exact Or.inl ⟨_, v, hl, trivial, rfl⟩
    | none => exact Or.inr (Or.inl ⟨trivial, rfl⟩)
  · obtain ⟨lname⟩ := t
    obtain rfl := (Option.some_inj.1 ho).symm
    have hiff : Untaken s (.resume k i) ↔ i.raised = true ∨ s.shared.names.lookup lname = none := by
      simp only [Untaken, hk]
    by_cases hr : i.raised = true
    · refine Or.inr (Or.inl ⟨hiff.2 (Or.inl hr), ?_⟩)
      dsimp only
      rw [if_pos hr]
    · refine Or.inr (Or.inr ⟨lname, ?_, hiff.trans ⟨fun h => h.resolve_left hr, Or.inr⟩⟩)
      dsimp only
      rw [if_neg hr]

/-- What a launch that ends leaves behind, whether the name is taken or not. -/
theorem lists_named (g : Node) (lname : String) :
    (named g lname).nservice = g.nservice + 1 ∧
      (named g lname).launched = (lname, g.nservice) :: g.launched ∧
      (named g lname).returned = (lname, g.nservice) :: g.returned := by
  unfold named Node.name
  dsimp only
  split
  · exact ⟨rfl, rfl, rfl⟩
  · exact ⟨rfl, rfl, rfl⟩

theorem names_named {g : Node} {lname : String} (n : String) {w : ℕ}
    (h : (named g lname).names.lookup n = some w) :
    g.names.lookup n = some w ∨ n = lname ∧ w = g.nservice := by
  unfold named Node.name at h
  dsimp only at h
  split at h
  · exact Or.inl h
  · have h : (g.names.insert lname g.nservice).lookup n = some w := h
    rw [lookup_insert_eq] at h
    split at h
    · rename_i hn
      exact Or.inr ⟨hn, (Option.some_inj.1 h).symm⟩
    · exact Or.inl h

theorem names_named_of_none {g : Node} {lname : String} (hn : g.names.lookup lname = none) :
    (named g lname).names = g.names.insert lname g.nservice := by
  unfold named Node.name
  dsimp only
  split
  · rename_i hv
    exact absurd (hn.symm.trans hv) (by simp)
  · rfl

theorem owned_step {s s' : Sys} {e : Ev} (h : machine.exec s e = some s') (ho : Owned s.shared) :
    Owned s'.shared := by
  rcases step_cases h with ⟨lname, v, -, -, heq⟩ | ⟨-, heq⟩ | ⟨lname, heq, -⟩
  · rw [heq]
    intro n w hw
    obtain ⟨hlt, hla, hre⟩ := ho n w hw
    exact ⟨hlt, hla, List.mem_cons_of_mem _ hre⟩
  · rw [heq]
    exact ho
  · rw [heq]
    intro n w hw
    obtain ⟨hcount, hla, hre⟩ := lists_named s.shared lname
    rw [hcount, hla, hre]
    rcases names_named n hw with hw | ⟨rfl, rfl⟩
    · obtain ⟨hlt, hla, hre⟩ := ho n w hw
      exact ⟨Nat.lt_succ_of_lt hlt, List.mem_cons_of_mem _ hla, List.mem_cons_of_mem _ hre⟩
    · exact ⟨Nat.lt_succ_self _, List.mem_cons_self, List.mem_cons_self⟩

/-- A launch that ends while the name is free. -/
theorem Holds.named {g : Node} (h : Holds g) {lname : String} (hn : g.names.lookup lname = none) :
    Holds (named g lname) := by
  have hnew : ∀ (l : List (String × ℕ)), (∀ n w, (n, w) ∈ l → g.names.lookup n = some w) →
      ∀ n w, (n, w) ∈ (lname, g.nservice) :: l →
        (g.names.insert lname g.nservice).lookup n = some w := by
    intro l hl n w hw
    rw [lookup_insert_eq]
    rcases List.mem_cons.1 hw with heq | hw
    · obtain ⟨rfl, rfl⟩ := Prod.mk.inj heq
      exact if_pos rfl
    · have hlook := hl n w hw
      rw [if_neg]
      · exact hlook
      · rintro rfl
        exact absurd (hn.symm.trans hlook) (by simp)
  obtain ⟨-, hla, hre⟩ := lists_named g lname
  refine ⟨?_, ?_⟩
  · rw [names_named_of_none hn, hla]
    exact hnew _ h.launched
  · rw [names_named_of_none hn, hre]
    exact hnew _ h.returned

/-- **As long as the condition holds**, whatever was launched or returned has the name. -/
theorem single_step {s s' : Sys} {e : Ev} (h : machine.exec s e = some s') (hu : Untaken s e)
    (hh : Holds s.shared) : Holds s'.shared := by
  rcases step_cases h with ⟨lname, v, hv, -, heq⟩ | ⟨-, heq⟩ | ⟨lname, heq, hiff⟩
  · rw [heq]
    refine ⟨hh.launched, fun n w hw => ?_⟩
    rcases List.mem_cons.1 hw with hw | hw
    · obtain ⟨rfl, rfl⟩ := Prod.mk.inj hw
      exact hv
    · exact hh.returned n w hw
  · rw [heq]
    exact hh
  · rw [heq]
    exact hh.named (hiff.1 hu)

/-- What was returned stays. -/
theorem returned_step {s s' : Sys} {e : Ev} (h : machine.exec s e = some s') :
    s.shared.returned ⊆ s'.shared.returned := by
  rcases step_cases h with ⟨lname, v, -, -, heq⟩ | ⟨-, heq⟩ | ⟨lname, heq, -⟩
  · rw [heq]
    exact List.subset_cons_self _ _
  · rw [heq]
    exact List.Subset.refl _
  · rw [heq, (lists_named _ _).2.2]
    exact List.subset_cons_self _ _

/-- **A step that misses the condition**: two callers have different services. -/
theorem not_single_step {s s' : Sys} {e : Ev} (h : machine.exec s e = some s')
    (ho : Owned s.shared) (hu : ¬ Untaken s e) :
    ∃ lname v v', v ≠ v' ∧ (lname, v) ∈ s'.shared.returned ∧ (lname, v') ∈ s'.shared.returned := by
  rcases step_cases h with ⟨_, _, _, hu', _⟩ | ⟨hu', _⟩ | ⟨lname, heq, hiff⟩
  · exact absurd hu' hu
  · exact absurd hu' hu
  · obtain ⟨v, hv⟩ := Option.ne_none_iff_exists'.1 fun hn => hu (hiff.2 hn)
    obtain ⟨hlt, -, hre⟩ := ho lname v hv
    refine ⟨lname, v, s.shared.nservice, Nat.ne_of_lt hlt, returned_step h hre, ?_⟩
    rw [heq, (lists_named _ _).2.2]
    exact List.mem_cons_self

/-- A run goes step by step. -/
theorem run_any_cons {e : Ev} {es : List Ev} {s s' : Sys}
    (h : machine.run Any s (e :: es) = some s') :
    ∃ s₁, machine.exec s e = some s₁ ∧ machine.run Any s₁ es = some s' := by
  rw [Machine.run] at h
  exact Option.bind_eq_some_iff.1 ((if_pos (show Any s e from trivial)).symm.trans h)

theorem returned_run {es : List Ev} {s s' : Sys} (h : machine.run Any s es = some s') :
    s.shared.returned ⊆ s'.shared.returned := by
  induction es generalizing s with
  | nil =>
      obtain rfl := Option.some_inj.1 h
      exact List.Subset.refl _
  | cons e es ih =>
      obtain ⟨s₁, he, hr⟩ := run_any_cons h
      exact List.Subset.trans (returned_step he) (ih hr)

theorem single_run {es : List Ev} {s s' : Sys} (h : machine.run Any s es = some s')
    (ho : Owned s.shared) (hh : Holds s.shared) :
    machine.run Untaken s es = some s' ↔ Single s'.shared := by
  induction es generalizing s with
  | nil =>
      obtain rfl := Option.some_inj.1 h
      exact ⟨fun _ => hh.single, fun _ => rfl⟩
  | cons e es ih =>
      obtain ⟨s₁, he, hr⟩ := run_any_cons h
      by_cases hu : Untaken s e
      · rw [Machine.run, if_pos hu, he]
        exact ih hr (owned_step he ho) (single_step he hu hh)
      · rw [Machine.run, if_neg hu]
        refine ⟨(fun hnone => by cases hnone), fun hs => ?_⟩
        obtain ⟨lname, v, v', hne, hv, hv'⟩ := not_single_step he ho hu
        exact absurd (hs.same lname v v' (returned_run hr hv) (returned_run hr hv')) hne

/-- **A run keeps the services single exactly if each of its steps meets the condition.** -/
theorem single_iff {es : List Ev} {s : Sys} (h : machine.run Any start es = some s) :
    Single s.shared ↔ machine.run Untaken start es = some s := by
  have ho : Owned start.shared := by
    intro _ _ hs
    cases hs
  have hh : Holds start.shared := by
    constructor
    · intro _ _ hs
      cases hs
    · intro _ _ hs
      cases hs
  exact (single_run h ho hh).symm

/-- A gate launches the watchdog; when the launch has ended an agent finds it. -/
def gateThenAgent : List Ev :=
  [.call (.xlaunch "watchdog" "fish") {}, .resume 0 {}, .call (.xlaunch "watchdog" "fish") {}]

theorem single_gateThenAgent : ∃ s, machine.run Any start gateThenAgent = some s ∧
    (Single s.shared ↔ machine.run Untaken start gateThenAgent = some s) :=
  ⟨_, rfl, single_iff rfl⟩

/-- A gate has launched the watchdog but not named it yet, and the first agent of that watchdog
looks for it. -/
theorem two_watchdogs : ∃ s, machine.run Any start [.call (.xlaunch "watchdog" "fish") {},
      .call (.xlaunch "watchdog" "fish") {}, .resume 0 {}, .resume 0 {}] = some s ∧
    ¬ Single s.shared := by
  refine ⟨_, rfl, fun h => ?_⟩
  exact absurd (h.same ".watchdog_fish" 0 1 (by decide) (by decide)) (by decide)

end Halieutics.Xlaunch
