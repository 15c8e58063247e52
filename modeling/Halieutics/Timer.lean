/-
**The timer module: `lualib/common/timer.lua`.**

All timers of a service wait in one queue, sorted by the time at which they expire.  The queue is
looked at by `timer_update`, which `skynet.timeout` starts after a heartbeat and which calls the
functions of the timers that are due.  There is no loop that always runs: `timer_update` schedules
the next one itself when timers are left, and `inneradd` schedules one when the queue has length
one.

A function that is called may add and remove timers, yield, return or raise.  While it runs, its
`timer_update` is suspended inside it; whether a timer is added by such a function or from outside
makes no difference to the module, so both are requests here.  A timer is a table that the queue,
the map and a suspended `timer_update` share; it is identified with its number.

Main definitions:

* `Halieutics.Timer.Tmr`, `Halieutics.Timer.Data` — a timer, and the variables of the module;
* `Halieutics.Timer.inneradd`, `Halieutics.Timer.add`, `Halieutics.Timer.remove`,
  `Halieutics.Timer.update` — its functions;
* `Halieutics.Timer.machine` — **the module as a machine**: its coroutines are the `timer_update`s
  that are scheduled or running;
* `Halieutics.Timer.Ticking`, `Halieutics.Timer.NeverStalls` — the queue is looked after, and every
  timer in it will be called;
* `Halieutics.Timer.Calm` — the condition: a function raises only when no timer waits;
* `Halieutics.Timer.Apart` — the condition: no timer enters an empty queue while a `timer_update` is
  scheduled or running.

Main results:

* `Halieutics.Timer.fires_of_waiting` — **as long as some `timer_update` is left, every timer of the
  queue can still be called**;
* `Halieutics.Timer.neverStalls_of_calm` — **timers never stall in a run that meets the condition**,
  and `Halieutics.Timer.error_stalls_queue` — an error stops all other timers;
* `Halieutics.Timer.oneHeartbeat_of_apart` — **there is at most one `timer_update` in a run that
  meets the condition**, and `Halieutics.Timer.add_in_callback_doubles` — a function that adds a
  timer starts a second one.
-/

import Halieutics.Coroutine
import Halieutics.LuaTable

set_option relaxedAutoImplicit false
set_option autoImplicit false

namespace Halieutics

namespace Timer

open LuaTable Coroutine

/-! ### The module -/

/-- A timer.  Its period is any number, fractions and negative ones included. -/
structure Tmr where
  expire : ℚ := 0
  timeout : ℚ := 0
  repeated : Bool := false
  cancel : Bool := false

/-- A sum that is neither rounded nor wrapped. -/
def sum (now : ℕ) (timeout : ℚ) : ℚ := now + timeout

/-- The variables of the module, the clock `math.floor(skynet.time())`, and what Lua makes of the
clock plus a timeout: floats are rounded, and integers wrap. -/
structure Data where
  plus : ℕ → ℚ → ℚ := sum
  tmrId : ℕ := 0
  queue : List ℕ := []
  map : Table ℕ Unit := ∅
  objs : ℕ → Tmr := fun _ => {}
  time : ℕ := 0

/-- A `timer_update` that is scheduled, or that is inside the function of the timer `tid`; `now` is
its local variable. -/
inductive Co where
  | scheduled
  | calling (now tid : ℕ)
  deriving DecidableEq, Repr

/-- The requests: `timer.add`, `timer.remove`, and `timer.get(tid).repeated = true`. -/
inductive Req where
  | add (timeout : ℚ)
  | remove (tid : ℕ)
  | setRepeated (tid : ℕ)

/-- What a segment is given: the seconds that have gone by, and whether the function that is called
raises. -/
structure Inp where
  elapsed : ℕ := 0
  raises : Bool := false

/-- Changing a timer. -/
def Data.set (d : Data) (tid : ℕ) (f : Tmr → Tmr) : Data :=
  { d with objs := Function.update d.objs tid (f (d.objs tid)) }

/-- The place of a timer in the queue: before the first one that expires later. -/
def place (objs : ℕ → Tmr) (tid : ℕ) : List ℕ → List ℕ
  | [] => [tid]
  | t :: q => if (objs tid).expire < (objs t).expire then tid :: t :: q else t :: place objs tid q

/-- **`timer.inneradd`**, with the `timer_update` it schedules. -/
def inneradd (d : Data) (tid : ℕ) : Data × List Co :=
  let queue := place d.objs tid d.queue
  ({ d with queue := queue, map := d.map.insert tid () },
    if queue.length = 1 then [.scheduled] else [])

/-- **`timer.add`**. -/
def add (d : Data) (timeout : ℚ) : Data × List Co :=
  let tid := d.tmrId + 1
  let d := { d with tmrId := tid }
  inneradd (d.set tid fun _ => { expire := d.plus d.time timeout, timeout := timeout }) tid

/-- **`timer.remove`**. -/
def remove (d : Data) (tid : ℕ) : Data :=
  if (d.map.lookup tid).isSome then d.set tid fun t => { t with cancel := true } else d

/-- A timer found by `timer.get` is made a repeated one. -/
def setRepeated (d : Data) (tid : ℕ) : Data :=
  if (d.map.lookup tid).isSome then d.set tid fun t => { t with repeated := true } else d

/-- The head of the queue is taken out. -/
def Data.pop (d : Data) (t : ℕ) (q : List ℕ) : Data :=
  { d with queue := q, map := d.map.erase t }

/-- The loop of `timer_update` over the queue, up to the next function it calls, or to its end. -/
def loop (d : Data) (now : ℕ) : List ℕ → Data × List Co
  | [] => (d, [])
  | t :: q =>
      if (d.objs t).cancel then loop (d.pop t q) now q
      else if (d.objs t).expire ≤ now then (d.pop t q, [.calling now t])
      else (d, [.scheduled])

/-- **`timer_update`** up to the first function it calls. -/
def update (d : Data) : Data × List Co := loop d d.time d.queue

/-- `timer_update` after the function of `tid` has returned. -/
def called (d : Data) (now tid : ℕ) : Data × List Co :=
  if (d.objs tid).repeated then
    let p := inneradd (d.set tid fun t => { t with expire := d.plus d.time t.timeout }) tid
    let r := loop p.1 now p.1.queue
    (r.1, p.2 ++ r.2)
  else loop d now d.queue

/-- The clock goes on. -/
def Data.tick (d : Data) (inp : Inp) : Data := { d with time := d.time + inp.elapsed }

/-- A request. -/
def call (d : Data) (r : Req) (inp : Inp) : Data × List Co :=
  match r with
  | .add timeout => add (d.tick inp) timeout
  | .remove tid => (remove (d.tick inp) tid, [])
  | .setRepeated tid => (setRepeated (d.tick inp) tid, [])

/-- A `timer_update` is started by `skynet.timeout`, or the function it is inside returns or raises.
An error ends the coroutine. -/
def resume (d : Data) (co : Co) (inp : Inp) : Option (Data × List Co) :=
  match co with
  | .scheduled => some (update (d.tick inp))
  | .calling now tid =>
      if inp.raises then some (d.tick inp, []) else some (called (d.tick inp) now tid)

/-- **The module as a machine.** -/
def machine : Machine Data Co Req Inp := ⟨call, resume⟩

/-- A state of the module. -/
abbrev Sys := Pool Data Co

/-- Nothing has been added yet. -/
def starting (plus : ℕ → ℚ → ℚ) : Sys := ⟨{ plus := plus }, []⟩

/-- Nothing has been added yet, and sums are exact. -/
abbrev start : Sys := starting sum

/-! ### The properties -/

/-- The queue is looked after: while timers wait, a `timer_update` is scheduled or running. -/
def Ticking (s : Sys) : Prop := s.shared.queue ≠ [] → s.cos ≠ []

/-- The `timer_update`s go on, and the functions they call return. -/
def Undisturbed (_ : Sys) : Event Req Inp → Prop
  | .call _ _ => False
  | .resume _ inp => inp.raises = false

/-- The timer `tid` can still be called: it is, once the `timer_update`s have gone on for a
while. -/
def Fires (s : Sys) (tid : ℕ) : Prop :=
  ∃ s' now, machine.Reach Undisturbed s s' ∧ Co.calling now tid ∈ s'.cos

/-- **Timers never stall**: the queue is looked after, and every timer in it that has not been
removed can still be called. -/
def NeverStalls (s : Sys) : Prop :=
  Ticking s ∧ ∀ tid ∈ s.shared.queue, (s.shared.objs tid).cancel = false → Fires s tid

/-- **The condition**: a function raises only when no timer waits. -/
def Calm (s : Sys) : Event Req Inp → Prop
  | .call _ _ => True
  | .resume k inp =>
      match s.cos[k]? with
      | some (.calling _ _) => inp.raises = true → s.shared.queue = []
      | _ => True

instance (s : Sys) (e : Event Req Inp) : Decidable (Calm s e) := by
  unfold Calm
  split
  · infer_instance
  · split <;> infer_instance

/-- **One heartbeat**: at most one `timer_update` is scheduled or running. -/
def OneHeartbeat (s : Sys) : Prop := s.cos.length ≤ 1

instance (s : Sys) : Decidable (OneHeartbeat s) := inferInstanceAs (Decidable (_ ≤ _))

/-- **The condition**: no timer is added to an empty queue while a `timer_update` is scheduled or
running, and no repeated timer returns to an empty queue. -/
def Apart (s : Sys) : Event Req Inp → Prop
  | .call (.add _) _ => s.shared.queue = [] → s.cos = []
  | .call _ _ => True
  | .resume k inp =>
      match s.cos[k]? with
      | some (.calling _ tid) =>
          inp.raises = false → (s.shared.objs tid).repeated = true → s.shared.queue ≠ []
      | _ => True

instance (s : Sys) (e : Event Req Inp) : Decidable (Apart s e) := by
  unfold Apart
  split
  · exact decidable_of_iff (s.shared.queue ≠ [] ∨ s.cos.isEmpty)
      (by rw [List.isEmpty_iff, ← Decidable.imp_iff_not_or])
  · infer_instance
  · split <;> infer_instance

/-! ### The queue -/

/-- A timer is put somewhere into the queue. -/
theorem place_perm (objs : ℕ → Tmr) (tid : ℕ) (q : List ℕ) : (place objs tid q).Perm
    (tid :: q) := by
  induction q with
  | nil => exact List.Perm.refl _
  | cons t q ih =>
      rw [place]
      split
      · exact List.Perm.refl _
      · exact (ih.cons t).trans (List.Perm.swap tid t q)

/-- A timer goes behind all that do not expire later. -/
theorem place_append (objs : ℕ → Tmr) (tid : ℕ) {l r : List ℕ}
    (h : ∀ t ∈ l, (objs t).expire ≤ (objs tid).expire) :
    place objs tid (l ++ r) = l ++ place objs tid r := by
  induction l with
  | nil => rfl
  | cons t l ih =>
      have ht := h t List.mem_cons_self
      rw [List.cons_append, place, if_neg (not_lt.2 ht),
        ih fun x hx => h x (List.mem_cons_of_mem t hx),
        List.cons_append]

/-- The queue is sorted by the time at which the timers expire. -/
def Sorted (objs : ℕ → Tmr) (q : List ℕ) : Prop :=
  q.Pairwise fun a b => (objs a).expire ≤ (objs b).expire

theorem Sorted.place {objs : ℕ → Tmr} {tid : ℕ} {q : List ℕ} (h : Sorted objs q) :
    Sorted objs (place objs tid q) := by
  induction q with
  | nil => exact List.pairwise_singleton _ _
  | cons t q ih =>
      obtain ⟨ht, hq⟩ := List.pairwise_cons.1 h
      rw [Timer.place]
      split
      · rename_i hlt
        refine List.pairwise_cons.2 ⟨fun x hx => ?_, h⟩
        rcases List.mem_cons.1 hx with rfl | hx
        · exact hlt.le
        · exact hlt.le.trans (ht x hx)
      · rename_i hlt
        refine List.pairwise_cons.2 ⟨fun x hx => ?_, ih hq⟩
        rcases List.mem_cons.1 ((place_perm objs tid q).mem_iff.1 hx) with rfl | hx
        · exact not_lt.1 hlt
        · exact ht x hx

/-- Only the expiry times of its timers matter. -/
theorem Sorted.congr {objs objs' : ℕ → Tmr} {q : List ℕ} (h : Sorted objs q)
    (hq : ∀ t ∈ q, (objs' t).expire = (objs t).expire) : Sorted objs' q := by
  refine List.Pairwise.imp_of_mem ?_ h
  intro a b ha hb hab
  rw [hq a ha, hq b hb]
  exact hab

/-! ### What the loop does -/

@[simp] theorem objs_loop (d : Data) (now : ℕ) (q : List ℕ) : (loop d now q).1.objs = d.objs := by
  induction q generalizing d with
  | nil => rfl
  | cons t q ih =>
      rw [loop]
      split
      · exact ih (d.pop t q)
      · split <;> rfl

/-- The loop leaves at most one `timer_update` behind, and one when timers are left. -/
theorem loop_cos (d : Data) (now : ℕ) (q : List ℕ) (h : d.queue = q) :
    (loop d now q).2.length ≤ 1 ∧ ((loop d now q).1.queue ≠ [] → (loop d now q).2 ≠ []) := by
  induction q generalizing d with
  | nil => exact ⟨Nat.zero_le 1, fun hq => absurd h hq⟩
  | cons t q ih =>
      rw [loop]
      split
      · exact ih (d.pop t q) rfl
      · split <;> simp

/-- **The loop and a timer of the queue**: the timer is called, or the loop stops in front of it; it
stops without calling a function only when the timer is not due. -/
theorem loop_reaches {d : Data} (now : ℕ) {tid : ℕ} {l r : List ℕ} (h : d.queue = l ++ tid :: r)
    (hs : Sorted d.objs d.queue) (hc : (d.objs tid).cancel = false) :
    (loop d now d.queue).2 = [.calling now tid] ∨
    (∃ u l', (loop d now d.queue).2 = [.calling now u] ∧ l'.length < l.length ∧
      (loop d now d.queue).1.queue = l' ++ tid :: r) ∨
    (∃ l', (loop d now d.queue).2 = [.scheduled] ∧ l'.length ≤ l.length ∧
      (loop d now d.queue).1.queue = l' ++ tid :: r ∧ now < (d.objs tid).expire) := by
  induction l generalizing d with
  | nil =>
      rw [h, List.nil_append, loop, if_neg (by simp [hc])]
      split
      · exact Or.inl rfl
      · rename_i hlt
        exact Or.inr (Or.inr ⟨[], rfl, le_rfl, h, not_le.1 hlt⟩)
  | cons t l ih =>
      have hs' := hs
      rw [h, List.cons_append] at hs'
      obtain ⟨ht, hq⟩ := List.pairwise_cons.1 hs'
      rw [h, List.cons_append, loop]
      split
      · -- a cancelled timer is dropped, and the loop goes on
        rcases ih (d := d.pop t (l ++ tid :: r)) rfl hq hc with h1 | ⟨u, l', h1, h2, h3⟩ |
          ⟨l', h1, h2, h3, h4⟩
        · exact Or.inl h1
        · exact Or.inr (Or.inl ⟨u, l', h1, h2.trans (Nat.lt_succ_self _), h3⟩)
        · exact Or.inr (Or.inr ⟨l', h1, h2.trans (Nat.le_succ _), h3, h4⟩)
      · split
        · exact Or.inr (Or.inl ⟨t, l, rfl, Nat.lt_succ_self _, rfl⟩)
        · rename_i hlt
          have hle := ht tid (List.mem_append_right _ List.mem_cons_self)
          exact Or.inr (Or.inr ⟨t :: l, rfl, le_rfl, h, (not_le.1 hlt).trans_le hle⟩)

/-- **What an event does**: a request is served, a scheduled `timer_update` looks at the queue, or
the function that a `timer_update` is inside raises or returns. -/
inductive Does (s : Sys) : Event Req Inp → Sys → Prop
  | add (timeout : ℚ) (inp : Inp) :
      Does s (.call (.add timeout) inp) ⟨(Timer.add (s.shared.tick inp) timeout).1,
        s.cos ++ (Timer.add (s.shared.tick inp) timeout).2⟩
  | remove (tid : ℕ) (inp : Inp) :
      Does s (.call (.remove tid) inp) ⟨Timer.remove (s.shared.tick inp) tid, s.cos⟩
  | setRepeated (tid : ℕ) (inp : Inp) :
      Does s (.call (.setRepeated tid) inp) ⟨Timer.setRepeated (s.shared.tick inp) tid, s.cos⟩
  | look {k : ℕ} {inp : Inp} {l r : List Co} : s.cos[k]? = some .scheduled →
      s.cos = l ++ .scheduled :: r →
      Does s (.resume k inp)
      ⟨(update (s.shared.tick inp)).1, l ++ (update (s.shared.tick inp)).2 ++ r⟩
  | fail {k now tid : ℕ} {inp : Inp} {l r : List Co} : s.cos[k]? = some (.calling now tid) →
      s.cos = l ++ .calling now tid :: r → inp.raises = true →
      Does s (.resume k inp) ⟨s.shared.tick inp, l ++ r⟩
  | back {k now tid : ℕ} {inp : Inp} {l r : List Co} : s.cos[k]? = some (.calling now tid) →
      s.cos = l ++ .calling now tid :: r → inp.raises = false →
      Does s (.resume k inp) ⟨(called (s.shared.tick inp) now tid).1,
        l ++ (called (s.shared.tick inp) now tid).2 ++ r⟩

/-- **Every event is on the list.** -/
theorem does_of_exec {s s' : Sys} {e : Event Req Inp} (h : machine.exec s e = some s') :
    Does s e s' := by
  rcases Machine.exec_cases h with
    ⟨r, inp, rfl, rfl⟩ | ⟨k, inp, l, co, r, out, rfl, hk, hsp, ho, rfl⟩
  · cases r with
    | add timeout => exact .add timeout inp
    | remove tid =>
        simp only [machine, call, List.append_nil]
        exact .remove tid inp
    | setRepeated tid =>
        simp only [machine, call, List.append_nil]
        exact .setRepeated tid inp
  · cases co with
    | scheduled =>
        obtain rfl := Option.some_inj.1 ho
        exact .look hk hsp
    | calling now tid =>
        cases hr : inp.raises with
        | true =>
            obtain rfl : (s.shared.tick inp, []) = out := by simpa [machine, resume, hr] using ho
            simp only [List.append_nil]
            exact .fail hk hsp hr
        | false =>
            obtain rfl : called (s.shared.tick inp) now tid = out := by
              simpa [machine, resume, hr] using ho
            exact .back hk hsp hr

/-- The first `timer_update` goes on. -/
theorem exec_first {s : Sys} {co : Co} {cos : List Co} (hcos : s.cos = co :: cos) (inp : Inp)
    {out : Data × List Co} (ho : resume s.shared co inp = some out) :
    machine.exec s (.resume 0 inp) = some ⟨out.1, out.2 ++ cos⟩ := by
  simp only [Machine.exec, hcos, List.getElem?_cons_zero, machine, ho, Option.map_some,
    List.take_zero, List.nil_append, Nat.zero_add, List.drop_one, List.tail_cons]

/-! ### At most one heartbeat -/

/-- A queue that had timers gets no new `timer_update` from a timer that is put into it. -/
theorem cos_inneradd {d : Data} (h : d.queue ≠ []) (tid : ℕ) : (inneradd d tid).2 = [] := by
  have hl := (place_perm d.objs tid d.queue).length_eq
  have hpos := List.length_pos_iff.2 h
  rw [List.length_cons] at hl
  simp only [inneradd]
  rw [if_neg (by omega)]

theorem cos_add {d : Data} (h : d.queue ≠ []) (timeout : ℚ) : (add d timeout).2 = [] := by
  rw [add]
  exact cos_inneradd (by exact h) _

theorem length_cos_inneradd (d : Data) (tid : ℕ) : (inneradd d tid).2.length ≤ 1 := by
  simp only [inneradd]
  split <;> simp

/-- **There is at most one `timer_update`, in every run that meets the condition.** -/
theorem oneHeartbeat_of_apart {plus : ℕ → ℚ → ℚ} {s : Sys}
    (h : machine.Reach Apart (starting plus) s) :
    OneHeartbeat s := by
  refine Machine.Reach.inv (P := OneHeartbeat) ?_ ?_ h
  · exact Nat.zero_le 1
  intro s e s' hs hC he
  -- the one that goes on is the only one
  have alone : ∀ {co : Co} {l r : List Co}, s.cos = l ++ co :: r → l = [] ∧ r = [] := by
    intro co l r hsp
    rw [OneHeartbeat, hsp] at hs
    simp only [List.length_append, List.length_cons] at hs
    exact ⟨List.length_eq_zero_iff.1 (by omega), List.length_eq_zero_iff.1 (by omega)⟩
  cases does_of_exec he with
  | add timeout inp =>
      by_cases hq : s.shared.queue = []
      · simp only [OneHeartbeat, hC hq, List.nil_append]
        exact length_cos_inneradd _ _
      · have hcos : (add (s.shared.tick inp) timeout).2 = [] :=
          cos_add (d := s.shared.tick inp) hq timeout
        simpa only [OneHeartbeat, hcos, List.append_nil] using hs
  | remove tid inp => exact hs
  | setRepeated tid inp => exact hs
  | look hk hsp =>
      obtain ⟨rfl, rfl⟩ := alone hsp
      simp only [OneHeartbeat, List.nil_append, List.append_nil]
      exact (loop_cos _ _ _ rfl).1
  | fail hk hsp hr =>
      obtain ⟨rfl, rfl⟩ := alone hsp
      exact Nat.zero_le 1
  | @back k now tid inp l r hk hsp hr =>
      obtain ⟨rfl, rfl⟩ := alone hsp
      rw [Apart, hk] at hC
      simp only [OneHeartbeat, List.nil_append, List.append_nil]
      rw [called]
      split
      · rename_i hrep
        simp only
        rw [cos_inneradd (d := (s.shared.tick inp).set tid _) (hC hr hrep), List.nil_append]
        exact (loop_cos _ _ _ rfl).1
      · exact (loop_cos _ _ _ rfl).1

/-- Two timers, a repeated one among them. -/
def apartRun : List (Event Req Inp) :=
  [.call (.add 1) {}, .call (.setRepeated 1) {}, .call (.add 2) {}, .resume 0 { elapsed := 1 },
    .resume 0 {}]

theorem oneHeartbeat_apartRun :
    ∃ s, (machine.Reach Apart start s ∧ s.cos = [.scheduled]) ∧ OneHeartbeat s := by
  obtain ⟨s, hs, hp⟩ := Machine.exists_reach (M := machine) (C := Apart) (i := start) apartRun
    (p := fun s => decide (s.cos = [.scheduled])) (by decide +kernel)
  exact ⟨s, ⟨hs, of_decide_eq_true hp⟩, oneHeartbeat_of_apart hs⟩

/-- **A function that adds a timer starts a second `timer_update`**: the queue is empty while the
function of its last timer runs, so the timer it adds schedules one, and so does the `timer_update`
that called it. -/
theorem add_in_callback_doubles :
    ∃ s, machine.Reach (fun _ _ => True) start s ∧ ¬ OneHeartbeat s := by
  obtain ⟨s, hs, hp⟩ := Machine.exists_reach (M := machine) (C := fun _ _ => True) (i := start)
    [.call (.add 10) {}, .resume 0 { elapsed := 10 }, .call (.add 10) {}, .resume 0 {}]
    (p := fun s => decide (s.cos = [.scheduled, .scheduled])) (by decide +kernel)
  refine ⟨s, hs, ?_⟩
  rw [OneHeartbeat, of_decide_eq_true hp]
  decide

/-- The clock reaches every time. -/
theorem exists_tick (d : Data) (e x : ℚ) : ∃ inp : Inp, inp.raises = false ∧
    e ≤ (d.tick inp).time ∧ e ≤ (d.tick inp).time + x := by
  refine ⟨{ elapsed := ⌈e⌉₊ + ⌈-x⌉₊ }, rfl, ?_⟩
  have he : e ≤ ⌈e⌉₊ := Nat.le_ceil e
  have hx : -x ≤ ⌈-x⌉₊ := Nat.le_ceil (-x)
  have htime : ((d.tick { elapsed := ⌈e⌉₊ + ⌈-x⌉₊ }).time : ℚ) = d.time + (⌈e⌉₊ + ⌈-x⌉₊) := by
    push_cast [Data.tick]
    rfl
  have hd : (0 : ℚ) ≤ d.time := Nat.cast_nonneg _
  have hc : (0 : ℚ) ≤ ⌈-x⌉₊ := Nat.cast_nonneg _
  rw [htime]
  constructor
  · linarith
  · linarith

/-- `n` heartbeats, and one timer that waits. -/
def Beating (n : ℕ) (s : Sys) : Prop :=
  s.shared.plus = sum ∧ s.cos = List.replicate n .scheduled ∧ ∃ tid, s.shared.queue = [tid] ∧
    (s.shared.objs tid).cancel = false ∧ (s.shared.objs tid).repeated = false

/-- A timer whose function adds the next one, as `do_work` of the statistics service does, adds a
heartbeat each time it is called. -/
theorem Beating.succ {n : ℕ} {s : Sys} (h : Beating (n + 1) s) :
    ∃ s', machine.Reach (fun _ _ => True) s s' ∧ Beating (n + 2) s' := by
  obtain ⟨hplus, hcos, tid, hq, hc, hr⟩ := h
  obtain ⟨inp, -, he, -⟩ := exists_tick s.shared (s.shared.objs tid).expire 0
  obtain ⟨now, hnow⟩ : ∃ now, now = (s.shared.tick inp).time := ⟨_, rfl⟩
  obtain ⟨d₁, hd₁⟩ : ∃ d₁, d₁ = (s.shared.tick inp).pop tid [] := ⟨_, rfl⟩
  -- the first heartbeat calls the function
  have hu : update (s.shared.tick inp) = (d₁, [.calling now tid]) := by
    have hq' : (s.shared.tick inp).queue = [tid] := hq
    have hc' : ((s.shared.tick inp).objs tid).cancel = false := hc
    have he' : ((s.shared.tick inp).objs tid).expire ≤ (s.shared.tick inp).time := he
    rw [update, hq', loop, if_neg (by simp [hc']), if_pos he', hd₁, hnow]
  have h₁ := exec_first hcos inp (congrArg some hu)
  -- the function adds a timer to the empty queue
  have hr₁ : (d₁.objs tid).repeated = false := by
    rw [hd₁]
    exact hr
  have hq₁ : d₁.queue = [] := by
    rw [hd₁]
    rfl
  obtain ⟨d₂, hd₂⟩ : ∃ d₂, d₂ = (add d₁ 1).1 := ⟨_, rfl⟩
  have hq₂ : d₂.queue = [d₁.tmrId + 1] := by
    rw [hd₂]
    simp [add, inneradd, Data.set, hq₁, place]
  have hobj₂ : d₂.objs (d₁.tmrId + 1) = { expire := now + 1, timeout := 1 } := by
    have hsum : ((now : ℚ) + 1) = d₁.plus d₁.time 1 := by
      rw [hd₁, hnow]
      exact (congrFun (congrFun hplus _) _).symm
    rw [hsum, hd₂]
    exact Function.update_self _ _ _
  have hr₂ : (d₂.objs tid).repeated = false := by
    by_cases ht : tid = d₁.tmrId + 1
    · rw [ht, hobj₂]
    · rw [hd₂]
      change (Function.update d₁.objs (d₁.tmrId + 1) _ tid).repeated = false
      rw [Function.update_of_ne ht]
      exact hr₁
  have h₂ : machine.exec ⟨d₁, [.calling now tid] ++ List.replicate n .scheduled⟩ (.call (.add 1) {})
      = some ⟨d₂, .calling now tid :: (List.replicate n .scheduled ++ [.scheduled])⟩ := by
    have hadd : add d₁ 1 = (d₂, [.scheduled]) := by
      rw [hd₂]
      simp [add, inneradd, Data.set, hq₁, place]
    have htick : d₁.tick {} = d₁ := rfl
    simp only [Machine.exec, machine, call, htick, hadd, List.cons_append,
      List.nil_append]
  -- it returns, and its caller finds a timer that is not due
  have hl : called d₂ now tid = (d₂, [.scheduled]) := by
    rw [called, if_neg (by simp [hr₂]), hq₂, loop, hobj₂, if_neg (by simp), if_neg (by simp)]
  have h₃ := exec_first
    (s := ⟨d₂, .calling now tid :: (List.replicate n .scheduled ++ [.scheduled])⟩)
    rfl {} (congrArg some hl)
  have hplus₂ : d₂.plus = sum := by
    rw [hd₂, hd₁]
    exact hplus
  refine ⟨_, ((Machine.Reach.init.step trivial h₁).step trivial h₂).step trivial h₃, hplus₂, ?_,
    d₁.tmrId + 1, hq₂, ?_, ?_⟩
  · rw [← List.replicate_succ', ← List.replicate_one, List.replicate_append_replicate, Nat.add_comm]
  · rw [hobj₂]
  · rw [hobj₂]

/-- **Heartbeats accumulate without bound** in a service that adds the next timer in the function of
the last. -/
theorem heartbeats_unbounded (n : ℕ) :
    ∃ s, machine.Reach (fun _ _ => True) start s ∧ s.cos.length = n + 1 := by
  obtain ⟨s, hs, hb⟩ : ∃ s, machine.Reach (fun _ _ => True) start s ∧ Beating (n + 1) s := by
    induction n with
    | zero =>
        refine ⟨_, Machine.Reach.init.step (e := .call (.add 1) {}) trivial rfl, rfl, rfl, 1,
          rfl, rfl, rfl⟩
    | succ n ih =>
        obtain ⟨s, hs, hb⟩ := ih
        obtain ⟨s', hs', hb'⟩ := hb.succ
        exact ⟨s', hs.trans hs', hb'⟩
  exact ⟨s, hs, by rw [hb.2.1, List.length_replicate]⟩

/-! ### Every timer is in one place -/

/-- The timer whose function a `timer_update` is inside. -/
def Co.tid? : Co → Option ℕ
  | .scheduled => none
  | .calling _ tid => some tid

/-- The timers that wait or are being called. -/
def held (d : Data) (cos : List Co) : List ℕ := d.queue ++ cos.filterMap Co.tid?

theorem held_calling (d : Data) (now tid : ℕ) (cos : List Co) :
    (held d (.calling now tid :: cos)).Perm (tid :: held d cos) := List.perm_middle

/-- **The invariant of the queue**: every timer is in one place, and the queue is sorted. -/
structure Wf (d : Data) (cos : List Co) : Prop where
  fresh : ∀ tid ∈ held d cos, tid ≤ d.tmrId
  nodup : (held d cos).Nodup
  sorted : Sorted d.objs d.queue

theorem Wf.perm {d : Data} {cos cos' : List Co} (h : Wf d cos) (hp : cos'.Perm cos) :
    Wf d cos' := by
  have hh : (held d cos').Perm (held d cos) := (hp.filterMap _).append_left _
  exact ⟨fun tid ht => h.fresh tid (hh.mem_iff.1 ht), hh.nodup_iff.2 h.nodup, h.sorted⟩

/-- The `timer_update` that goes on may stand in front of the others. -/
theorem Wf.front {d : Data} {cos l r : List Co} {co : Co} (h : Wf d cos)
    (hsp : cos = l ++ co :: r) :
    Wf d (co :: (l ++ r)) :=
  h.perm (hsp ▸ List.perm_middle.symm)

/-- A timer that waits is not being called. -/
theorem Wf.not_queued {d : Data} {cos : List Co} {now tid : ℕ}
    (h : Wf d (.calling now tid :: cos)) :
    tid ∉ held d cos := by
  exact (List.nodup_cons.1 ((held_calling d now tid cos).nodup_iff.1 h.nodup)).1

/-- A `timer_update` that is scheduled or that ends holds no timer. -/
theorem Wf.tail {d : Data} {co : Co} {cos : List Co} (h : Wf d (co :: cos)) : Wf d cos := by
  have hh : (held d cos).Sublist (held d (co :: cos)) :=
    List.Sublist.append_left ((List.sublist_cons_self co cos).filterMap _) _
  exact ⟨fun tid ht => h.fresh tid (hh.subset ht), h.nodup.sublist hh, h.sorted⟩

theorem Wf.tick {d : Data} {cos : List Co} (h : Wf d cos) (inp : Inp) : Wf (d.tick inp) cos :=
  ⟨h.fresh, h.nodup, h.sorted⟩

/-- A timer may be changed, as long as it stays where it is. -/
theorem Wf.set {d : Data} {cos : List Co} (h : Wf d cos) {tid : ℕ} {f : Tmr → Tmr}
    (hf : tid ∈ d.queue → (f (d.objs tid)).expire = (d.objs tid).expire) :
    Wf (d.set tid f) cos := by
  refine ⟨h.fresh, h.nodup, h.sorted.congr fun t ht => ?_⟩
  by_cases htid : t = tid
  · subst htid
    simp only [Data.set, Function.update_self]
    exact hf ht
  · simp only [Data.set, Function.update_of_ne htid]

theorem Wf.pop {d : Data} {cos : List Co} {t : ℕ} {q : List ℕ} (h : Wf d cos)
    (hq : d.queue = t :: q) :
    Wf (d.pop t q) cos := by
  have hh : (held (d.pop t q) cos).Sublist (held d cos) := by
    rw [held, held, hq]
    exact (List.sublist_cons_self t q).append_right _
  have hs := h.sorted
  rw [hq] at hs
  exact ⟨fun x hx => h.fresh x (hh.subset hx), h.nodup.sublist hh, (List.pairwise_cons.1 hs).2⟩

/-- The function of the first timer is called. -/
theorem Wf.calling {d : Data} {cos : List Co} {t : ℕ} {q : List ℕ} (h : Wf d cos)
    (hq : d.queue = t :: q) (now : ℕ) : Wf (d.pop t q) (.calling now t :: cos) := by
  have hh : (held (d.pop t q) (.calling now t :: cos)).Perm (held d cos) := by
    refine (held_calling _ now t cos).trans ?_
    rw [held, held, hq]
    exact List.Perm.refl _
  exact ⟨fun x hx => h.fresh x (hh.mem_iff.1 hx), hh.nodup_iff.2 h.nodup, (h.pop hq).sorted⟩

theorem Wf.loop {d : Data} {cos : List Co} {q : List ℕ} (h : Wf d cos)
    (hq : d.queue = q) (now : ℕ) :
    Wf (loop d now q).1 ((loop d now q).2 ++ cos) := by
  induction q generalizing d with
  | nil => exact h
  | cons t q ih =>
      rw [Timer.loop]
      split
      · exact ih (h.pop hq) rfl
      · split
        · exact h.calling hq now
        · exact ⟨h.fresh, h.nodup, h.sorted⟩

/-- A timer that is nowhere else is put into the queue. -/
theorem Wf.inneradd {d : Data} {cos : List Co} {tid : ℕ} (h : Wf d cos) (hle : tid ≤ d.tmrId)
    (hn : tid ∉ held d cos) : Wf (inneradd d tid).1 ((inneradd d tid).2 ++ cos) := by
  have hnew : (Timer.inneradd d tid).2.filterMap Co.tid? = [] := by
    simp only [Timer.inneradd]
    split <;> rfl
  have hh : (held (Timer.inneradd d tid).1 ((Timer.inneradd d tid).2 ++ cos)).Perm
      (tid :: held d cos) := by
    rw [held, held, List.filterMap_append, hnew, List.nil_append]
    exact (place_perm d.objs tid d.queue).append_right _
  refine ⟨fun x hx => ?_, hh.nodup_iff.2 (List.nodup_cons.2 ⟨hn, h.nodup⟩), h.sorted.place⟩
  rcases List.mem_cons.1 (hh.mem_iff.1 hx) with rfl | hx
  · exact hle
  · exact h.fresh x hx

/-- A repeated timer returns to the queue with a later time. -/
theorem Wf.again {d : Data} {cos : List Co} {now tid : ℕ} (h : Wf d (.calling now tid :: cos))
    (f : Tmr → Tmr) :
    Wf (Timer.inneradd (d.set tid f) tid).1 ((Timer.inneradd (d.set tid f) tid).2 ++ cos) := by
  have hn := h.not_queued
  refine (h.tail.set fun hq => absurd (List.mem_append_left _ hq) hn).inneradd ?_ hn
  exact h.fresh tid (List.mem_append_right _ (by simp [Co.tid?]))

theorem Wf.returned {d : Data} {cos : List Co} {now tid : ℕ} (h : Wf d (.calling now tid :: cos)) :
    Wf (called d now tid).1 ((called d now tid).2 ++ cos) := by
  rw [Timer.called]
  split
  · refine ((h.again _).loop rfl now).perm ?_
    exact Machine.perm_front _ _ _
  · exact h.tail.loop rfl now

theorem Wf.add {d : Data} {cos : List Co} (h : Wf d cos) (timeout : ℚ) :
    Wf (add d timeout).1 ((add d timeout).2 ++ cos) := by
  have hn : d.tmrId + 1 ∉ held d cos := fun hm => absurd (h.fresh _ hm) (by omega)
  have h' : Wf { d with tmrId := d.tmrId + 1 } cos :=
    ⟨fun tid ht => (h.fresh tid ht).trans (Nat.le_succ _), h.nodup, h.sorted⟩
  exact (h'.set fun hq => absurd (List.mem_append_left _ hq) hn).inneradd le_rfl hn

/-- **The invariant is kept by every event.** -/
theorem Wf.step {s s' : Sys} {e : Event Req Inp} (h : Wf s.shared s.cos)
    (he : machine.exec s e = some s') : Wf s'.shared s'.cos := by
  cases does_of_exec he with
  | add timeout inp => exact ((h.tick inp).add timeout).perm List.perm_append_comm
  | remove tid inp =>
      change Wf (Timer.remove (s.shared.tick inp) tid) s.cos
      rw [Timer.remove]
      split
      · exact (h.tick inp).set fun _ => rfl
      · exact h.tick inp
  | setRepeated tid inp =>
      change Wf (Timer.setRepeated (s.shared.tick inp) tid) s.cos
      rw [Timer.setRepeated]
      split
      · exact (h.tick inp).set fun _ => rfl
      · exact h.tick inp
  | look hk hsp => exact (((h.tick _).front hsp).tail.loop rfl _).perm (Machine.perm_front _ _ _)
  | fail hk hsp hr => exact ((h.tick _).front hsp).tail
  | back hk hsp hr => exact ((h.tick _).front hsp).returned.perm (Machine.perm_front _ _ _)

theorem wf_of_reach {C : Sys → Event Req Inp → Prop} {plus : ℕ → ℚ → ℚ} {s : Sys}
    (h : machine.Reach C (starting plus) s) : Wf s.shared s.cos := by
  refine Machine.Reach.inv (P := fun s => Wf s.shared s.cos) ?_ (fun s e s' hs _ he => hs.step he) h
  exact ⟨fun tid ht => absurd ht (by simp [held, starting]), List.nodup_nil, List.Pairwise.nil⟩

/-! ### Sums stay as they are -/

theorem plus_loop {d : Data} (now : ℕ) (q : List ℕ) : (loop d now q).1.plus = d.plus := by
  induction q generalizing d with
  | nil => rfl
  | cons t q ih =>
      rw [loop]
      split
      · exact ih
      · split <;> rfl

theorem plus_step {s s' : Sys} {e : Event Req Inp} (he : machine.exec s e = some s') :
    s'.shared.plus = s.shared.plus := by
  cases does_of_exec he with
  | add timeout inp => rfl
  | remove tid inp =>
      change (Timer.remove (s.shared.tick inp) tid).plus = _
      unfold Timer.remove
      split <;> rfl
  | setRepeated tid inp =>
      change (Timer.setRepeated (s.shared.tick inp) tid).plus = _
      unfold Timer.setRepeated
      split <;> rfl
  | look hk hsp => exact plus_loop _ _
  | fail hk hsp hr => rfl
  | back hk hsp hr =>
      simp only [called]
      split
      · exact plus_loop _ _
      · exact plus_loop _ _

theorem plus_of_reach {C : Sys → Event Req Inp → Prop} {s₀ s : Sys} (h : machine.Reach C s₀ s) :
    s.shared.plus = s₀.shared.plus :=
  Machine.Reach.inv (P := fun s => s.shared.plus = s₀.shared.plus) rfl
    (fun _ _ _ hs _ he => (plus_step he).trans hs) h

/-! ### As long as a `timer_update` is left, every timer can be called -/

/-- After a function has returned, the loop goes on with a queue in which a timer that is due is as
far to the front as before: a repeated timer returns behind it. -/
theorem called_eq {d : Data} (now : ℕ) {u tid : ℕ} {l r : List ℕ} (hq : d.queue = l ++ tid :: r)
    (hs : Sorted d.objs d.queue) (hu : u ∉ d.queue)
    (he : (d.objs tid).expire ≤ d.plus d.time (d.objs u).timeout) :
    ∃ d' r', called d now u = loop d' now d'.queue ∧ d'.queue = l ++ tid :: r' ∧
      Sorted d'.objs d'.queue ∧ d'.objs tid = d.objs tid := by
  rw [called]
  split
  · obtain ⟨d₁, hd₁⟩ : ∃ d₁,
      d₁ = d.set u fun t => { t with expire := d.plus d.time t.timeout } := ⟨_, rfl⟩
    have hobjs : ∀ t ∈ d.queue, d₁.objs t = d.objs t := by
      intro t ht
      have htu : t ≠ u := fun h => hu (h ▸ ht)
      rw [hd₁]
      exact Function.update_of_ne htu _ _
    have hdq : d₁.queue = (l ++ [tid]) ++ r := by
      rw [hd₁, List.append_assoc]
      exact hq
    have htid : tid ∈ d.queue := by
      rw [hq]
      exact List.mem_append_right _ List.mem_cons_self
    have hexp : ∀ t ∈ l ++ [tid], (d₁.objs t).expire ≤ (d₁.objs u).expire := by
      intro t ht
      have hle : (d.objs t).expire ≤ (d.objs tid).expire := by
        rcases List.mem_append.1 ht with ht | ht
        · rw [hq] at hs
          exact (List.pairwise_append.1 hs).2.2 t ht tid List.mem_cons_self
        · rw [List.mem_singleton.1 ht]
      have htq : t ∈ d.queue := by
        rw [hq, ← List.singleton_append, ← List.append_assoc]
        exact List.mem_append_left _ ht
      rw [hobjs t htq]
      simp only [hd₁, Data.set, Function.update_self]
      exact hle.trans he
    have hne : d₁.queue ≠ [] := by
      rw [hdq]
      simp
    refine ⟨(inneradd d₁ u).1, place d₁.objs u r, ?_, ?_, ?_, hobjs tid htid⟩
    · simp only [← hd₁]
      rw [cos_inneradd hne u, List.nil_append]
    · change place d₁.objs u d₁.queue = _
      rw [hdq, place_append _ _ hexp, List.append_assoc]
      rfl
    · have hs₁ : Sorted d₁.objs d₁.queue := by
        have hqq : d₁.queue = d.queue := by rw [hd₁]; rfl
        rw [hqq]
        exact hs.congr fun t ht => by rw [hobjs t ht]
      exact hs₁.place
  · exact ⟨d, r, rfl, hq, hs, rfl⟩

/-- What an undisturbed event makes possible is possible. -/
theorem Fires.step {s s' : Sys} {e : Event Req Inp} {tid : ℕ} (hC : Undisturbed s e)
    (he : machine.exec s e = some s') (h : Fires s' tid) : Fires s tid := by
  obtain ⟨s'', now, hr, hm⟩ := h
  exact ⟨s'', now, (Machine.Reach.init.step hC he).trans hr, hm⟩

/-- **As long as a `timer_update` is left, every timer of the queue can still be called**: every
round of the loop takes a timer in front of it out of the queue, and what returns to the queue
returns behind it. -/
theorem fires_of_waiting {s : Sys} {tid : ℕ} {l r : List ℕ} (hw : Wf s.shared s.cos)
    (hplus : s.shared.plus = sum) (hcos : s.cos ≠ []) (hq : s.shared.queue = l ++ tid :: r)
    (hc : (s.shared.objs tid).cancel = false) : Fires s tid := by
  -- the number of timers in front of it decreases
  induction hn : l.length using Nat.strong_induction_on generalizing s l r with
  | _ n ih =>
      have scheduled : ∀ (s : Sys) (cos : List Co) (l r : List ℕ), Wf s.shared s.cos →
          s.shared.plus = sum → s.cos = .scheduled :: cos → s.shared.queue = l ++ tid :: r →
          l.length ≤ n → (s.shared.objs tid).cancel = false → Fires s tid := by
        intro s cos l r hw hplus hcos hq hl hc
        -- the clock has reached the time of the timer
        obtain ⟨inp, hr, he, -⟩ := exists_tick s.shared (s.shared.objs tid).expire 0
        have hup : resume s.shared .scheduled inp = some (update (s.shared.tick inp)) := rfl
        have hx := exec_first hcos inp hup
        have hw' := hw.step hx
        have hplus' := (plus_step hx).trans hplus
        refine Fires.step (e := .resume 0 inp) hr hx ?_
        rcases loop_reaches (d := s.shared.tick inp) (s.shared.tick inp).time hq hw.sorted hc with
          h1 | ⟨u, l', h1, h2, h3⟩ | ⟨l', -, -, -, h4⟩
        · refine ⟨_, (s.shared.tick inp).time, .init, ?_⟩
          simp [update, h1]
        · refine ih l'.length (h2.trans_le hl) hw' hplus' ?_ h3 ?_ rfl
          · simp [update, h1]
          · simp only [update, objs_loop]
            exact hc
        · exact absurd h4 (not_lt.2 he)
      obtain ⟨co, cos, hco⟩ := List.exists_cons_of_ne_nil hcos
      cases co with
      | scheduled => exact scheduled s cos l r hw hplus hco hq hn.le hc
      | calling now u =>
          have hwc := hw
          rw [hco] at hwc
          have hu : u ∉ s.shared.queue := fun h => hwc.not_queued (List.mem_append_left _ h)
          -- what returns to the queue returns behind the timer
          obtain ⟨inp, hr, -, he⟩ :=
            exists_tick s.shared (s.shared.objs tid).expire (s.shared.objs u).timeout
          have hlate : (s.shared.objs tid).expire
              ≤ s.shared.plus (s.shared.tick inp).time (s.shared.objs u).timeout := by
            rw [hplus]
            exact he
          have hcalled : resume s.shared (.calling now u) inp =
              some (called (s.shared.tick inp) now u) := by simp [resume, hr]
          have hx := exec_first hco inp hcalled
          have hw' := hw.step hx
          have hplus' := (plus_step hx).trans hplus
          obtain ⟨d', r', hd, hq', hs', hobj⟩ :=
            called_eq (d := s.shared.tick inp) now hq hw.sorted hu hlate
          refine Fires.step (e := .resume 0 inp) hr hx ?_
          rw [hd] at hw' hplus' ⊢
          replace hc : (d'.objs tid).cancel = false := by
            rw [hobj]
            exact hc
          rcases loop_reaches now hq' hs' hc with h1 | ⟨u', l', h1, h2, h3⟩ |
            ⟨l', h1, h2, h3, -⟩
          · refine ⟨_, now, .init, ?_⟩
            simp [h1]
          · refine ih l'.length (hn ▸ h2) hw' hplus' ?_ h3 ?_ rfl
            · simp [h1]
            · simpa using hc
          · refine scheduled _ cos l' r' hw' hplus' ?_ h3 (hn ▸ h2) ?_
            · simp [h1]
            · simpa using hc

/-! ### Timers never stall -/

/-- **The queue is looked after, in every run that meets the condition.** -/
theorem ticking_of_calm {s : Sys} (h : machine.Reach Calm start s) : Ticking s := by
  refine Machine.Reach.inv (P := Ticking) (fun hq => absurd rfl hq) ?_ h
  intro s e s' hs hC he hq hcos
  cases does_of_exec he with
  | add timeout inp =>
      obtain ⟨hcos, hnew⟩ := List.append_eq_nil_iff.1 hcos
      by_cases hold : s.shared.queue = []
      · simp [add, inneradd, Data.set, Data.tick, hold, place] at hnew
      · exact hs hold hcos
  | remove tid inp =>
      refine hs ?_ hcos
      simp only [remove] at hq
      split at hq <;> exact hq
  | setRepeated tid inp =>
      refine hs ?_ hcos
      simp only [setRepeated] at hq
      split at hq <;> exact hq
  | look hk hsp =>
      simp only [List.append_eq_nil_iff] at hcos
      exact (loop_cos _ _ _ rfl).2 hq hcos.1.2
  | fail hk hsp hr =>
      rw [Calm, hk] at hC
      exact hq (hC hr)
  | back hk hsp hr =>
      simp only [List.append_eq_nil_iff] at hcos
      have hout := hcos.1.2
      simp only [called] at hout hq
      split at hout
      · rename_i hrep
        rw [if_pos hrep] at hq
        exact (loop_cos _ _ _ rfl).2 hq (List.append_eq_nil_iff.1 hout).2
      · rename_i hrep
        rw [if_neg hrep] at hq
        exact (loop_cos _ _ _ rfl).2 hq hout

/-- **Timers never stall, in every run that meets the condition.** -/
theorem neverStalls_of_calm {s : Sys} (h : machine.Reach Calm start s) : NeverStalls s := by
  have ht := ticking_of_calm h
  refine ⟨ht, fun tid htid hc => ?_⟩
  obtain ⟨l, r, hq⟩ := List.append_of_mem htid
  exact fires_of_waiting (wf_of_reach h) (plus_of_reach h) (ht (List.ne_nil_of_mem htid)) hq hc

/-- A timer whose function raises, and a later one. -/
def calmRun : List (Event Req Inp) :=
  [.call (.add 1) {}, .resume 0 { elapsed := 1 }, .resume 0 { raises := true },
    .call (.add 2) {}, .call (.add 1) {}]

theorem neverStalls_calmRun :
    ∃ s, (machine.Reach Calm start s ∧ s.shared.queue = [3, 2]) ∧ NeverStalls s := by
  obtain ⟨s, hs, hp⟩ := Machine.exists_reach (M := machine) (C := Calm) (i := start) calmRun
    (p := fun s => decide (s.shared.queue = [3, 2])) (by decide +kernel)
  exact ⟨s, ⟨hs, of_decide_eq_true hp⟩, neverStalls_of_calm hs⟩

/-- **An error stops all other timers**: two timers wait, the function of the first one raises, and
nothing looks at the queue any more; a timer that is added later does not change this. -/
theorem error_stalls_queue :
    ∃ s, machine.Reach (fun _ _ => True) start s ∧ ¬ NeverStalls s := by
  obtain ⟨s, hs, hp⟩ := Machine.exists_reach (M := machine) (C := fun _ _ => True) (i := start)
    [.call (.add 1) {}, .call (.add 15) {}, .resume 0 { elapsed := 1 },
    .resume 0 { raises := true },
      .call (.add 5) { elapsed := 60 }]
    (p := fun s => decide (s.shared.queue ≠ [] ∧ s.cos = [])) (by decide +kernel)
  obtain ⟨hq, hcos⟩ := of_decide_eq_true hp
  exact ⟨s, hs, fun h => h.1 hq hcos⟩

end Timer

end Halieutics
