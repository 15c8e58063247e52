/-
**The desk service as a coroutine machine.**

`Halieutics.RoomDesk` says what a segment of a handler does.  This module puts the segments
together: the requests the service receives, the queue `d.cs` through which `desk.client` runs the
client commands one after another, and the coroutine `new_desk` that a desk starts with.

Commands of the androids do not go through `desk.client`: `android_thread` calls `cli.ready`,
`cli.grab_banker`, `cli.gamerun` and, through its AI, `userfire` directly.  The timers of a running
game are requests of their own.

Main definitions:

* `Halieutics.Req` — the requests;
* `Halieutics.Co` — a suspended coroutine, and whether it holds `d.cs`;
* `Halieutics.desk` — **the machine**;
* `Halieutics.created` — the state a desk starts in;
* `Halieutics.Job`, `Halieutics.jobOf` — a piece of work between two yields, and the one an event
  does;
* `Halieutics.Under` — a condition on the work that events do;
* `Halieutics.Idle`, `Halieutics.Complete` — no request is in flight; requests do not overlap;
* `Halieutics.HandedOn`, `Halieutics.Done` — what becomes of the queue `d.cs`, and of the whole
  state, when a piece of work is done;
* `Halieutics.noted` — an observer that is shown every piece of work.

Main results:

* `Halieutics.desk_step`, `Halieutics.desk_cases` — **what an event of the desk does**: one piece of
  work, after which `d.cs` is handed on when its holder has finished;
* `Halieutics.desk_inv`, `Halieutics.seen_inv` — the invariant rule in these terms, for runs and for
  observed runs.
-/

import Halieutics.Observe
import Halieutics.RoomDesk

set_option relaxedAutoImplicit false
set_option autoImplicit false

namespace Halieutics

open LuaTable Coroutine

/-- The requests a desk receives. -/
inductive Req where
  | join (uid : ℕ) (android : Bool)
  | sitdown (uid : ℕ) (withseat : Option ℤ)
  | standup (uid : ℕ)
  | leave (uid : ℕ)
  | afk (uid : ℕ)
  | sceneinfo (uid : ℕ)
  | forceDismiss
  | client (uid : ℕ) (cmd : Cmd)
  | android (u : Ref) (cmd : Cmd)
  | buildFish
  | clearTrace

/-- The commands an android gives without `desk.client`. -/
def Cmd.direct : Cmd → Bool
  | .ready | .grabBanker _ | .gamerun | .userfire _ => true
  | _ => false

/-- A suspended coroutine; `cs` says that it runs inside `d.cs`. -/
structure Co where
  pc : Pc
  cs : Bool := false

/-- The timers change the roles of a game that runs. -/
def onTimer (d : Desk) (f : Roles → Roles) : Out :=
  match d.game with
  | none => .ret d .nil
  | some g =>
      if g.timers then .ret { d with game := some { g with roles := g.roles.map f } } .nil
      else .ret d .nil

/-- The first segment of a request that does not go through `d.cs`. -/
def direct (d : Desk) (inp : Inp) : Req → Out
  | .join uid android => join d uid android inp
  | .sitdown uid withseat => sitdown d uid withseat
  | .standup uid => standup d uid .ret
  | .leave uid => leave d uid .ret
  | .afk uid => afk d uid
  | .sceneinfo uid => sceneinfo d uid
  | .forceDismiss => forceDismiss d
  | .client _ _ => .ret d .nil
  | .android u cmd =>
      if (d.objs u).android && cmd.direct then cli d u inp cmd else .ret d .nil
  | .buildFish => onTimer d fun r => r.buildFish inp.now inp.kinds
  | .clearTrace => onTimer d fun r => r.update inp.now

/-- The holder of `d.cs` has finished: the next coroutine in the queue takes over. -/
def release (d : Desk) : Desk × List Co :=
  match d.csQueue with
  | [] => ({ d with csBusy := false }, [])
  | (u, cmd) :: q => ({ d with csQueue := q }, [⟨.begin u cmd, true⟩])

/-- The points at which a segment leaves coroutines suspended. -/
def Out.pcs (o : Out) : List Pc :=
  match o.res with
  | .wait pc => pc :: o.forks
  | .ret _ => o.forks

/-- A segment forks nothing, or, when it has finished, a vote. -/
def Out.Single (o : Out) : Prop := o.forks = [] ∨ ∃ r, o.res = .ret r ∧ o.forks = [.voteStart]

@[simp] theorem Out.single_ret (d : Desk) (r : Ret) : (Out.ret d r).Single := Or.inl rfl

@[simp] theorem Out.single_wait (d : Desk) (pc : Pc) : (Out.wait d pc).Single := Or.inl rfl

@[simp] theorem Out.d_ret (d : Desk) (r : Ret) : (Out.ret d r).d = d := rfl

@[simp] theorem Out.d_wait (d : Desk) (pc : Pc) : (Out.wait d pc).d = d := rfl

@[simp] theorem Out.pcs_ret (d : Desk) (r : Ret) : (Out.ret d r).pcs = [] := rfl

@[simp] theorem Out.pcs_wait (d : Desk) (pc : Pc) : (Out.wait d pc).pcs = [pc] := rfl

/-- The coroutines a segment leaves suspended; `cs` says that it ran inside `d.cs`. -/
def settle (cs : Bool) (o : Out) : Desk × List Co :=
  let forks := o.forks.map fun pc => { pc := pc : Co }
  match o.res with
  | .wait pc => ({ o.d with csBusy := o.d.csBusy || cs }, ⟨pc, cs⟩ :: forks)
  | .ret _ => if cs then ((release o.d).1, (release o.d).2 ++ forks) else (o.d, forks)

/-- The user whose command `desk.client` accepts. -/
def admits (d : Desk) (uid : ℕ) : Option Ref :=
  if d.live then d.usermap.lookup uid else none

/-- The desk once the call of a coroutine has been executed. -/
def executed (d : Desk) (inp : Inp) (pc : Pc) : Desk :=
  match pc.rpc d inp with
  | none => d
  | some r => d.called r

/-- A piece of work between two yields: the first segment of a request, the first segment of a
client command that `d.cs` lets through at once, or the segment of a suspended coroutine. -/
inductive Job where
  | req (r : Req)
  | cmd (u : Ref) (c : Cmd)
  | seg (pc : Pc)

/-- **What a piece of work does.** -/
def Job.out (d : Desk) (inp : Inp) : Job → Out
  | .req r => direct d inp r
  | .cmd u c => cli d u inp c
  | .seg pc => segment (executed d inp pc) inp pc

/-- The point from which a piece of work starts. -/
def Job.pcs : Job → List Pc
  | .seg pc => [pc]
  | _ => []

/-- The client command, and its user, whose first segment a piece of work is. -/
def Job.command (d : Desk) : Job → Option (Ref × Cmd)
  | .cmd u c => some (u, c)
  | .seg (.begin u c) => some (u, c)
  | .req (.android u c) => if (d.objs u).android && c.direct then some (u, c) else none
  | _ => none

/-- The first segment of a request. -/
def deskCall (d : Desk) (r : Req) (inp : Inp) : Desk × List Co :=
  match r with
  | .client uid c =>
      match admits d uid with
      | none => (d, [])
      | some u =>
          if d.csBusy then ({ d with csQueue := d.csQueue ++ [(u, c)] }, [])
          else settle true (Job.out d inp (.cmd u c))
  | r => settle false (Job.out d inp (.req r))

/-- The segment of a suspended coroutine. -/
def deskResume (d : Desk) (co : Co) (inp : Inp) : Option (Desk × List Co) :=
  if co.pc.enabled d inp then some (settle co.cs (Job.out d inp (.seg co.pc))) else none

/-- **The desk machine.** -/
def desk : Machine Desk Co Req Inp := ⟨deskCall, deskResume⟩

/-- A state of the desk service, as far as one desk is concerned. -/
abbrev Sys := Pool Desk Co

/-- An event of the desk service. -/
abbrev Ev := Event Req Inp

/-- **The state a desk starts in**: `desk.create` has registered it and is about to fork
`new_desk`. -/
def created (id creater : ℕ) (pay : Pay) (timelimit : ℕ) : Sys :=
  ⟨Desk.create id creater pay timelimit, [⟨.monitor, false⟩]⟩

/-- The work an event does, with its input; `none` when it only queues a command, or nothing. -/
def jobOf (s : Sys) : Ev → Option (Job × Inp)
  | .call (.client uid c) inp =>
      if s.shared.csBusy then none else (admits s.shared uid).map fun u => (.cmd u c, inp)
  | .call r inp => some (.req r, inp)
  | .resume k inp => s.cos[k]?.map fun co => (.seg co.pc, inp)

/-- The points at which the coroutines of a state are suspended. -/
def pcs (s : Sys) : List Pc := s.cos.map Co.pc

/-- A condition on the work that events do. -/
def Under (P : Sys → Job → Prop) (s : Sys) (e : Ev) : Prop :=
  match jobOf s e with
  | none => True
  | some j => P s j.1

instance (P : Sys → Job → Prop) [∀ s j, Decidable (P s j)] (s : Sys) (e : Ev) :
    Decidable (Under P s e) := by
  unfold Under
  split <;> infer_instance

/-- The coroutines that do not serve a request: `new_desk` and the vote. -/
def Pc.background : Pc → Bool
  | .monitor | .ready | .start | .config | .banker | .gamerun | .gameend | .result _ | .resultErr _
  | .voteStart | .vote _ => true
  | _ => false

/-- No request is in flight. -/
def Idle (s : Sys) : Prop := ∀ co ∈ s.cos, co.pc.background = true

instance (s : Sys) : Decidable (Idle s) := inferInstanceAs (Decidable (∀ co ∈ s.cos, _))

/-- The timers of a running game. -/
def Req.timer : Req → Bool
  | .buildFish | .clearTrace => true
  | _ => false

/-- **Requests do not overlap**: a request arrives only when the one before is complete, and `d.cs`
is free.  A timer may fire at any time. -/
def Complete (s : Sys) : Ev → Prop
  | .call r _ => r.timer = true ∨ (Idle s ∧ s.shared.csBusy = false)
  | .resume _ _ => True

instance (s : Sys) (e : Ev) : Decidable (Complete s e) :=
  match e with
  | .call r _ => inferInstanceAs (Decidable (r.timer = true ∨ _))
  | .resume _ _ => inferInstanceAs (Decidable True)

/-- Every event is allowed. -/
def Always (_ : Sys) (_ : Ev) : Prop := True

instance (s : Sys) (e : Ev) : Decidable (Always s e) := inferInstanceAs (Decidable True)

/-! ### What an event does -/

/-- The queue `d.cs` is handed on: nothing happens, or the first command of `old` is started. -/
def HandedOn (old q : List (Ref × Cmd)) (l : List Pc) : Prop :=
  (l = [] ∧ q = old) ∨ ∃ u c, old = (u, c) :: q ∧ l = [Pc.begin u c]

/-- Handing `d.cs` on changes nothing but the queue, and adds at most the queued command. -/
theorem settle_spec (cs : Bool) (o : Out) : ∃ b q l,
    (settle cs o).1 = { o.d with csBusy := b, csQueue := q } ∧
    ((settle cs o).2.map Co.pc).Perm (l ++ o.pcs) ∧ HandedOn o.d.csQueue q l := by
  have hf : (o.forks.map fun pc => ({ pc := pc } : Co)).map Co.pc = o.forks := by
    simp [Function.comp_def]
  cases hr : o.res with
  | wait pc =>
      refine ⟨o.d.csBusy || cs, o.d.csQueue, [], ?_, ?_, Or.inl ⟨rfl, rfl⟩⟩
      · simp only [settle, hr]
      · simp only [settle, hr, Out.pcs, List.map_cons, hf, List.nil_append]
        exact List.Perm.refl _
  | ret r =>
      cases cs with
      | false =>
          refine ⟨o.d.csBusy, o.d.csQueue, [], ?_, ?_, Or.inl ⟨rfl, rfl⟩⟩
          · simp [settle, hr]
          · simp only [settle, hr, Out.pcs, Bool.false_eq_true, if_false, hf, List.nil_append]
            exact List.Perm.refl _
      | true =>
          cases hq : o.d.csQueue with
          | nil =>
              refine ⟨false, [], [], ?_, ?_, Or.inl ⟨rfl, rfl⟩⟩
              · simp [settle, hr, release, hq]
              · simp only [settle, hr, release, hq, Out.pcs, if_true, List.nil_append, hf]
                exact List.Perm.refl _
          | cons p q =>
              obtain ⟨u, c⟩ := p
              refine ⟨o.d.csBusy, q, [.begin u c], ?_, ?_, Or.inr ⟨u, c, rfl, rfl⟩⟩
              · simp [settle, hr, release, hq]
              · simp only [settle, hr, release, hq, Out.pcs, if_true, List.map_append, hf,
                  List.map_cons, List.map_nil]
                exact List.Perm.refl _

/-- What the piece of work `j` makes of the state `s`: the coroutine it started from is replaced by
those it leaves behind, and the queue `d.cs` may be handed on. -/
def Done (s s' : Sys) (j : Job) (inp : Inp) : Prop :=
  ∃ rest b q l, (pcs s).Perm (j.pcs ++ rest) ∧ (∀ pc ∈ j.pcs, pc.enabled s.shared inp = true) ∧
    s'.shared = { (j.out s.shared inp).d with csBusy := b, csQueue := q } ∧
    (pcs s').Perm (l ++ ((j.out s.shared inp).pcs ++ rest)) ∧
    HandedOn (j.out s.shared inp).d.csQueue q l

/-- A request that starts a segment. -/
theorem done_call {s : Sys} {r : Req} {inp : Inp} (cs : Bool) {j : Job} (hj : j.pcs = [])
    (h : desk.call s.shared r inp = settle cs (j.out s.shared inp)) :
    Done s ⟨(desk.call s.shared r inp).1, s.cos ++ (desk.call s.shared r inp).2⟩ j inp := by
  obtain ⟨b, q, l, hd, hp, hl⟩ := settle_spec cs (j.out s.shared inp)
  refine ⟨pcs s, b, q, l, by rw [hj]; exact List.Perm.refl _, by rw [hj]; simp, by rw [h, hd], ?_,
    hl⟩
  simp only [pcs, List.map_append, h]
  refine (List.Perm.append_left _ hp).trans ?_
  rw [← List.append_assoc l]
  exact List.perm_append_comm

/-- A suspended coroutine that runs. -/
theorem done_resume {s : Sys} {inp : Inp} {l r : List Co} {co : Co} {out : Desk × List Co}
    (hs : s.cos = l ++ co :: r) (ho : desk.resume s.shared co inp = some out) :
    Done s ⟨out.1, l ++ out.2 ++ r⟩ (.seg co.pc) inp := by
  have hen : co.pc.enabled s.shared inp = true := by
    by_contra hne
    simp [desk, deskResume, hne] at ho
  have hout : out = settle co.cs (Job.out s.shared inp (.seg co.pc)) := by
    simpa [desk, deskResume, hen] using ho.symm
  obtain ⟨b, q, m, hd, hp, hm⟩ := settle_spec co.cs (Job.out s.shared inp (.seg co.pc))
  refine ⟨(l ++ r).map Co.pc, b, q, m, ?_, by simpa [Job.pcs] using hen, by rw [hout, hd], ?_, hm⟩
  · rw [pcs, hs]
    simp only [List.map_append, List.map_cons, Job.pcs, List.singleton_append]
    exact List.perm_middle
  · simp only [pcs, hout, List.map_append]
    refine ((List.Perm.append_left _ hp).append_right _).trans ?_
    rw [List.append_assoc, ← List.append_assoc m]
    exact List.perm_append_comm_assoc _ _ _

/-- **What an event of the desk does**: it queues a command, or it does one piece of work. -/
theorem desk_step {s s' : Sys} {e : Ev} (h : desk.exec s e = some s') :
    (jobOf s e = none ∧ ∃ q, s' = ⟨{ s.shared with csQueue := q }, s.cos⟩ ∧
      (q = s.shared.csQueue ∨ s.shared.csBusy = true ∧ ∃ uid c inp,
      e = .call (.client uid c) inp)) ∨
    (∃ j inp, jobOf s e = some (j, inp) ∧ Done s s' j inp) := by
  rcases Machine.exec_cases h with
    ⟨r, inp, rfl, rfl⟩ | ⟨k, inp, l, co, r, out, rfl, hk, hs, ho, rfl⟩
  · by_cases hr : ∃ uid c, r = .client uid c
    · obtain ⟨uid, c, rfl⟩ := hr
      cases ha : admits s.shared uid with
      | none =>
          refine Or.inl ⟨by simp [jobOf, ha], s.shared.csQueue, ?_, Or.inl rfl⟩
          simp [desk, deskCall, ha]
      | some u =>
          by_cases hb : s.shared.csBusy
          · refine Or.inl ⟨by simp [jobOf, hb], s.shared.csQueue ++ [(u, c)], ?_,
              Or.inr ⟨hb, uid, c, inp, rfl⟩⟩
            simp [desk, deskCall, ha, hb]
          · refine Or.inr ⟨.cmd u c, inp, by simp [jobOf, ha, hb], done_call true rfl ?_⟩
            simp [desk, deskCall, ha, hb]
    · refine Or.inr ⟨.req r, inp, ?_, done_call false rfl ?_⟩
      · cases r <;> first | rfl | exact absurd ⟨_, _, rfl⟩ hr
      · cases r <;> first | rfl | exact absurd ⟨_, _, rfl⟩ hr
  · exact Or.inr ⟨.seg co.pc, inp, by simp [jobOf, hk], done_resume hs ho⟩

/-- The same, taken apart. -/
theorem desk_cases {s s' : Sys} {e : Ev} (h : desk.exec s e = some s') :
    (∃ q, s' = ⟨{ s.shared with csQueue := q }, s.cos⟩ ∧
      (q = s.shared.csQueue ∨ s.shared.csBusy = true ∧ ∃ uid c inp,
      e = .call (.client uid c) inp)) ∨
    (∃ j inp rest b q l, jobOf s e = some (j, inp) ∧
      (pcs s).Perm (j.pcs ++ rest) ∧ (∀ pc ∈ j.pcs, pc.enabled s.shared inp = true) ∧
      s'.shared = { (j.out s.shared inp).d with csBusy := b, csQueue := q } ∧
      (pcs s').Perm (l ++ ((j.out s.shared inp).pcs ++ rest)) ∧
      HandedOn (j.out s.shared inp).d.csQueue q l) := by
  rcases desk_step h with ⟨-, hq⟩ | ⟨j, inp, hj, rest, b, q, l, hdone⟩
  · exact Or.inl hq
  · exact Or.inr ⟨j, inp, rest, b, q, l, hj, hdone⟩

/-- **The invariant rule for the desk.**  An invariant of the desk and of the points of its
coroutines has only to be kept by every piece of work; it may not depend on the order of the
coroutines, on the queue, or on queued commands. -/
theorem desk_inv {C : Sys → Ev → Prop} {I : Desk → List Pc → Prop} {s₀ s : Sys}
    (hperm : ∀ d l l', l.Perm l' → I d l → I d l')
    (hcs : ∀ d l b q, I d l → I { d with csBusy := b, csQueue := q } l)
    (hbegin : ∀ d l u c, I d l → I d (.begin u c :: l))
    (h₀ : I s₀.shared (pcs s₀))
    (hjob : ∀ s e j inp rest, C s e → jobOf s e = some (j, inp) →
      (pcs s).Perm (j.pcs ++ rest) → (∀ pc ∈ j.pcs, pc.enabled s.shared inp = true) →
      I s.shared (j.pcs ++ rest) →
      I (j.out s.shared inp).d ((j.out s.shared inp).pcs ++ rest))
    (h : desk.Reach C s₀ s) : I s.shared (pcs s) := by
  refine Machine.Reach.inv (P := fun s => I s.shared (pcs s)) h₀ ?_ h
  intro s e s' hI hC he
  rcases desk_cases he with ⟨q, rfl, -⟩ | ⟨j, inp, rest, b, q, l, hj, hp, hen, hd, hp', hl⟩
  · exact hcs s.shared _ s.shared.csBusy q hI
  · have hI' := hjob s e j inp rest hC hj hp hen (hperm _ _ _ hp hI)
    have hcs' := hcs _ _ b q hI'
    rw [hd]
    refine hperm _ _ _ hp'.symm ?_
    rcases hl with ⟨rfl, -⟩ | ⟨u, c, -, rfl⟩
    · exact hcs'
    · exact hbegin _ _ u c hcs'

/-! ### Observers -/

/-- An observer that is shown the work of a desk: `note` turns its record into the next. -/
def noted {ω : Type} (note : Desk → Job → ω → ω) (s : Sys) (e : Ev) (w : ω) : ω :=
  match jobOf s e with
  | none => w
  | some j => note s.shared j.1 w

/-- **The invariant rule for an observed desk.** -/
theorem seen_inv {ω : Type} {note : Desk → Job → ω → ω} {C : Sys → ω → Ev → Prop}
    {I : Desk → List Pc → ω → Prop} {s₀ s : Sys} {w₀ w : ω}
    (hperm : ∀ d l l' w, l.Perm l' → I d l w → I d l' w)
    (hcs : ∀ d l b q w, I d l w → I { d with csBusy := b, csQueue := q } l w)
    (hbegin : ∀ d l u c w, I d l w → I d (.begin u c :: l) w)
    (h₀ : I s₀.shared (pcs s₀) w₀)
    (hjob : ∀ s w e j inp rest, C s w e → jobOf s e = some (j, inp) →
      (pcs s).Perm (j.pcs ++ rest) → I s.shared (j.pcs ++ rest) w →
      I (j.out s.shared inp).d ((j.out s.shared inp).pcs ++ rest) (note s.shared j w))
    (h : desk.Seen (noted note) C s₀ w₀ s w) : I s.shared (pcs s) w := by
  refine Machine.Seen.inv (P := fun s w => I s.shared (pcs s) w) h₀ ?_ h
  intro s w e s' hI hC he
  unfold noted
  rcases desk_step he with ⟨hj, q, rfl, -⟩ | ⟨j, inp, hj, rest, b, q, l, hp, -, hd, hp', hl⟩
  · rw [hj]
    exact hcs s.shared _ s.shared.csBusy q w hI
  · rw [hj]
    have hI' := hjob s w e j inp rest hC hj hp (hperm _ _ _ _ hp hI)
    have hcs' := hcs _ _ b q _ hI'
    rw [hd]
    refine hperm _ _ _ _ hp'.symm ?_
    rcases hl with ⟨rfl, -⟩ | ⟨u, c, -, rfl⟩
    · exact hcs'
    · exact hbegin _ _ u c _ hcs'

end Halieutics
