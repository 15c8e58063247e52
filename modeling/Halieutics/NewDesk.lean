/-
**How `new_desk` ends.**

`new_desk` runs `start_desk` under `pcall`; when that raises, a handler forces the game that is on
to its end, collects the scores, and pays the charges back when no game has begun; then, in any
case, `free_desk` is to run.  The handler calls back into the game object: `d:force()` is a method
that the metatable of `desk.create` withdraws once `d.gaming` is `false`, and it uses the field
`_sync` that `gameend` has cleared.  The timers of the game are stopped by `gameend`, and nowhere
else.

This module translates `start_desk` and everything it calls once more, in one piece and with a point
wherever the code may raise.  What the other coroutines of the service do meanwhile enters through
`d.err` only, which a passed vote sets while `new_desk` waits for the end of the game.

Main definitions:

* `Halieutics.NewDesk.Point`, `Halieutics.NewDesk.World` — the points, and which of them raise;
* `Halieutics.NewDesk.State` — the fields of the desk and of the game object that decide the end,
  and the timers of the game that are on;
* `Halieutics.NewDesk.startDesk`, `Halieutics.NewDesk.newDesk` — **the code**;
* `Halieutics.NewDesk.CleansUp` — `free_desk` has run once, and no timer of the game is on;
* `Halieutics.NewDesk.World.tidy` — the condition: where the code may raise.

Main results:

* `Halieutics.NewDesk.startDesk_passes` — where `start_desk` stops, and what it leaves behind;
* `Halieutics.NewDesk.cleansUp_iff` — **`new_desk` cleans up exactly in the worlds that meet the
  condition**;
* `Halieutics.NewDesk.save_not_freed` — a desk whose result cannot be saved is never freed;
* `Halieutics.NewDesk.unhandled_of_force` — the handler is that of the desk service.
-/

import Halieutics.RoomDesk
import Halieutics.Faults

set_option relaxedAutoImplicit false
set_option autoImplicit false

namespace Halieutics.NewDesk

open LuaTable Faults

/-! ### Worlds and states -/

/-- **The points at which the code may raise**, by the call made there.  A flag tells the `gameover`
of the error handler from the first one. -/
inductive Point where
  | genandroid
  | waitReady
  | gamedbStart
  | sharedmod
  | rolesCreate
  | pushGamestart
  | onGamestart
  | waitBanker
  | determinBanker
  | waitGamerun
  | pushRun
  | attachAI
  | pushConfig
  | armFish (i : ℕ)
  | repeatFish (i : ℕ)
  | buildFish
  | armClear
  | repeatClear
  | waitGameend
  | freeAll
  | onGameend
  | gameover (handler : Bool)
  | saveGameResult (handler : Bool)
  | pushDismiss
  | backRoomcard
  deriving DecidableEq

/-- **The world**: the points that raise, whether the desk is to have androids, whether `wait_ready`
ends with a message, the kinds in `fishcfg`, and the vote that passes during the game. -/
structure World where
  raises : Point → Bool
  robots : Bool := false
  ready : Bool := true
  kinds : List ℤ := []
  interrupt : Option DeskErr := none

/-- The errors: a point that raises, the `error(d.err, 0)` of `start_desk`, and the two ways in
which `d:force()` raises. -/
inductive Err where
  | fault (p : Point)
  | dismissed (e : DeskErr)
  | noMethod
  | noSync
  deriving DecidableEq

/-- The game object: whether `_sync` is set, `timers`, and `specialtimers.kClearInvalidTimer`. -/
structure GameObj where
  sync : Bool := true
  timers : Option (Table ℤ ℕ) := none
  special : Option ℕ := none

/-- **The state**: fields of the desk, the ids of the timers of this game that are on, the next id,
and how often `free_desk` has run. -/
structure State where
  count : ℕ := 0
  isstart : Bool
  gaming : Option Bool := none
  err : Option DeskErr := none
  game : Option GameObj := none
  active : List ℕ := []
  ntimer : ℕ := 1
  freed : ℕ := 0

/-- A program. -/
abbrev Lua (α : Type) := EStateM Err State α

variable (w : World)

/-- A point of the code. -/
def World.point (p : Point) : Lua Unit := Faults.point w.raises .fault p

/-! ### Timers -/

/-- `timer.add`. -/
def timerAdd : Lua ℕ := do
  let s ← get
  modify fun s => { s with active := s.active ++ [s.ntimer], ntimer := s.ntimer + 1 }
  return s.ntimer

/-- Changing the game object. -/
def setGame (f : GameObj → GameObj) : Lua Unit := modify fun s => { s with game := s.game.map f }

/-- The loop of `startalltimers` over `fishcfg`. -/
def armFishes : List ℤ → ℕ → Lua Unit
  | [], _ => pure ()
  | kind :: kinds, i => do
      w.point (.armFish i)
      let tid ← timerAdd
      setGame fun g => { g with timers := some ((g.timers.getD ∅).insert kind tid) }
      w.point (.repeatFish i)
      armFishes kinds (i + 1)

/-- `startalltimers`. -/
def startalltimers : Lua Unit := do
  setGame fun g => { g with timers := some (g.timers.getD ∅) }
  armFishes w w.kinds 0
  w.point .buildFish
  w.point .armClear
  let tid ← timerAdd
  setGame fun g => { g with special := some tid }
  w.point .repeatClear

/-- `stopalltimers`, on the game object and the timers that are on. -/
def stopalltimers (s : State) : State :=
  match s.game with
  | none => s
  | some g =>
      match g.timers with
      | none => s
      | some timers =>
          { s with
            active := s.active.filter fun tid => tid ∉ vals timers ∧ some tid ≠ g.special
            game := some { g with timers := none, special := none } }

/-! ### The game -/

/-- `gameend`. -/
def gameend : Lua Unit := do
  modify stopalltimers
  w.point .freeAll
  setGame fun g => { g with sync := false }
  w.point .onGameend

/-- A vote passes while `new_desk` waits: `game_interrupt`. -/
def interrupted (s : State) : State :=
  match w.interrupt with
  | none => s
  | some e => if s.gaming = some true then { s with err := some e } else s

/-- `new_game`. -/
def newGame : Lua Unit := do
  w.point .pushConfig
  startalltimers w
  w.point .waitGameend
  modify (interrupted w)
  gameend w

/-- `desk:start`. -/
def start : Lua (Option GameObj) := do
  w.point .attachAI
  newGame w
  let s ← get
  modify fun s => { s with game := none }
  return s.game

/-- `desk:init`. -/
def init : Lua Unit := do
  modify fun s => { s with game := some {} }
  w.point .sharedmod
  w.point .rolesCreate

/-- `gamestart`. -/
def gamestart : Lua Unit := do
  modify fun s => { s with count := s.count + 1 }
  let s ← get
  if s.count = 1 then
    if !s.isstart then
      w.point .gamedbStart
      modify fun s => { s with isstart := true }
    init w
  w.point .pushGamestart
  w.point .onGamestart

/-- `gameover`. -/
def gameover (handler : Bool) : Option GameObj → Lua Unit
  | none => pure ()
  | some _ => do
      w.point (.gameover handler)
      w.point (.saveGameResult handler)

/-- `do_game`. -/
def doGame : Lua Unit := do
  gamestart w
  w.point .waitBanker
  w.point .determinBanker
  w.point .waitGamerun
  w.point .pushRun
  modify fun s => { s with gaming := some true }
  let g ← start w
  modify fun s => { s with gaming := some false }
  gameover w false g

/-- **`start_desk`.** -/
def startDesk : Lua Unit := do
  if w.robots then
    w.point .genandroid
  w.point .waitReady
  if w.ready then
    doGame w
  modify fun s => { s with isstart := false }
  let s ← get
  match s.err with
  | some e => throw (.dismissed e)
  | none => pure ()

/-- `desk:force`, called as a method of the desk. -/
def force : Lua (Option GameObj) := do
  let s ← get
  if s.gaming = some false then throw .noMethod
  match s.game with
  | none => return none
  | some g => if g.sync then return some g else throw .noSync

/-- The error handler of `new_desk`. -/
def handle : Err → Lua Unit
  | .dismissed _ => w.point .pushDismiss
  | _ => do
      let g ← force
      gameover w true g

/-- `free_desk`. -/
def freeDesk : Lua Unit := modify fun s => { s with freed := s.freed + 1 }

/-- **`new_desk`.** -/
def newDesk : Lua Unit := do
  try
    startDesk w
  catch e =>
    handle w e
    let s ← get
    if s.count = 0 then
      w.point .backRoomcard
  freeDesk

/-- The state in which `new_desk` begins. -/
def fresh (isstart : Bool) : State := { isstart := isstart }

/-- The state a program ends in, whether it returns or raises. -/
def final {α : Type} (m : Lua α) (s : State) : State :=
  match m s with
  | .ok _ s => s
  | .error _ s => s

/-- **Cleaned up**: `free_desk` has run exactly once, and no timer of the game is on. -/
def CleansUp (s : State) : Prop := s.freed = 1 ∧ s.active = []

instance (s : State) : Decidable (CleansUp s) := inferInstanceAs (Decidable (_ ∧ _))

/-! ### The condition -/

/-- The points of the loop of `startalltimers`. -/
def armPoints : List ℤ → ℕ → List Point
  | [], _ => []
  | _ :: kinds, i => .armFish i :: .repeatFish i :: armPoints kinds (i + 1)

/-- The points of `do_game`, in order. -/
def World.gamePoints (isstart : Bool) : List Point :=
  (if isstart then [] else [.gamedbStart]) ++
    [.sharedmod, .rolesCreate, .pushGamestart, .onGamestart, .waitBanker, .determinBanker,
      .waitGamerun, .pushRun, .attachAI, .pushConfig] ++ armPoints w.kinds 0 ++
    [.buildFish, .armClear, .repeatClear, .waitGameend, .freeAll, .onGameend, .gameover false,
      .saveGameResult false]

/-- The points of `start_desk`, in order. -/
def World.points (isstart : Bool) : List Point :=
  (if w.robots then [.genandroid] else []) ++ .waitReady ::
    (if w.ready then w.gamePoints isstart else [])

/-- `gameover` of the error handler does not raise. -/
def World.gameoverRuns : Bool := !w.raises (.gameover true) && !w.raises (.saveGameResult true)

/-- **The errors that are mended**: those before the first timer is on, and those between
`stopalltimers` and the moment `_sync` is cleared; and the handler itself must not raise. -/
def World.mends : Point → Bool
  | .genandroid | .waitReady => !w.raises .backRoomcard
  | .gamedbStart => true
  | .sharedmod | .rolesCreate | .pushGamestart | .onGamestart | .waitBanker | .determinBanker
  | .waitGamerun | .pushRun | .attachAI | .pushConfig | .armFish 0 => w.gameoverRuns
  | .buildFish | .armClear => w.kinds.isEmpty && w.gameoverRuns
  | .freeAll => decide w.kinds.Nodup && w.gameoverRuns
  | _ => false

/-- **The condition**: the first point that raises is one that is mended; when none does, the kinds
of the fish are distinct, and whoever is told about a passed vote does not raise. -/
def World.tidy (isstart : Bool) : Bool :=
  match (w.points isstart).find? w.raises with
  | some p => w.mends p
  | none =>
      !w.ready || (decide w.kinds.Nodup && (w.interrupt.isNone || !w.raises .pushDismiss))

/-! ### What an error leaves behind -/

variable {w} {s t : State} {kinds armed : List ℤ}

/-- The handler can cope with the state `t`, and no timer is on. -/
def World.Recovers (w : World) (t : State) : Prop :=
  t.gaming ≠ some false ∧ (∀ g, t.game = some g → g.sync = true ∧ w.gameoverRuns = true) ∧
    (t.count = 0 → w.raises .backRoomcard = false) ∧ t.active = []

/-- **What an error at the point `p` leaves behind.** -/
def World.Left (w : World) (p : Point) (t : State) : Prop :=
  t.freed = 0 ∧ (w.Recovers t ↔ w.mends p = true)

/-- The program passes the points `ps`. -/
abbrev World.Goes (w : World) {α : Type} (ps : List Point) (m : Lua α) (s : State)
    (r : EStateM.Result Err State α) : Prop := Passes w.raises Err.fault w.Left ps m s r

/-- Before the game object is made. -/
theorem left_early {p : Point} (hp : w.mends p = (decide (s.count ≠ 0) || !w.raises .backRoomcard))
    (hf : s.freed = 0) (hg : s.gaming = none) (hgame : s.game = none) (ha : s.active = []) :
    w.Left p s := by
  refine ⟨hf, ?_⟩
  rw [hp]
  constructor
  · rintro ⟨-, -, hback, -⟩
    by_cases hc : s.count = 0
    · simp [hback hc]
    · simp [hc]
  · intro h
    refine ⟨by rw [hg]; exact nofun, fun g hs => ?_, fun hc => by simpa [hc] using h, ha⟩
    rw [hgame] at hs
    cases hs

/-- While there is a game object with a barrier. -/
theorem left_game {p : Point} {g : GameObj} {b : Bool} (hp : w.mends p = (b && w.gameoverRuns))
    (hb : s.active = [] ↔ b = true) (hf : s.freed = 0) (hc : s.count ≠ 0)
    (hg : s.gaming ≠ some false) (hgame : s.game = some g) (hs : g.sync = true) : w.Left p s := by
  refine ⟨hf, ?_⟩
  rw [hp, Bool.and_eq_true]
  constructor
  · rintro ⟨-, hgame', -, ha⟩
    exact ⟨hb.1 ha, (hgame' g hgame).2⟩
  · rintro ⟨hb', hruns⟩
    refine ⟨hg, fun g' hg' => ?_, fun h => absurd h hc, hb.2 hb'⟩
    obtain rfl := Option.some_inj.1 (hgame.symm.trans hg')
    exact ⟨hs, hruns⟩

/-- Where the handler cannot help. -/
theorem left_lost {p : Point} (hp : w.mends p = false) (hf : s.freed = 0)
    (h : ¬ w.Recovers s) : w.Left p s := by
  refine ⟨hf, iff_of_false h ?_⟩
  rw [hp]
  exact Bool.false_ne_true

theorem not_recovers_of_active (h : s.active ≠ []) : ¬ w.Recovers s := fun hr => h hr.2.2.2

theorem not_recovers_of_gaming (h : s.gaming = some false) : ¬ w.Recovers s := fun hr => hr.1 h

theorem not_recovers_of_sync {g : GameObj} (hg : s.game = some g) (hs : g.sync = false) :
    ¬ w.Recovers s := fun hr => absurd (hs.symm.trans (hr.2.1 g hg).1) (by decide)

/-! ### The timers -/

/-- The table `timers` of the game object, when fish of the kinds `armed` have their timers: it has
every timer that is on exactly if the kinds are distinct. -/
structure Books (timers : Table ℤ ℕ) (armed : List ℤ) (s : State) : Prop where
  old : ∀ tid ∈ s.active, tid < s.ntimer
  active : s.active = [] ↔ armed = []
  keys : ∀ kind, (timers.lookup kind).isSome ↔ kind ∈ armed
  on : ∀ kind tid, timers.lookup kind = some tid → tid ∈ s.active
  once : ∀ kind kind' tid, timers.lookup kind = some tid → timers.lookup kind' = some tid →
    kind = kind'
  all : (∀ tid ∈ s.active, tid ∈ vals timers) ↔ armed.Nodup

/-- **The state while timers are started.** -/
structure Arming (armed : List ℤ) (s : State) : Prop where
  count : s.count = 1
  gaming : s.gaming = some true
  err : s.err = none
  freed : s.freed = 0
  game : ∃ timers, s.game = some { timers := some timers } ∧ Books timers armed s

/-- A timer of one more kind. -/
def arm (kind : ℤ) (s : State) : State :=
  { s with
    active := s.active ++ [s.ntimer]
    ntimer := s.ntimer + 1
    game := s.game.map fun g => { g with timers := some ((g.timers.getD ∅).insert kind s.ntimer) } }

theorem Books.arm {timers : Table ℤ ℕ} (h : Books timers armed s) (kind : ℤ) :
    Books (timers.insert kind s.ntimer) (armed ++ [kind]) (arm kind s) := by
  have hnew : ∀ k, timers.lookup k ≠ some s.ntimer := fun k hk =>
    absurd (h.old _ (h.on k _ hk)) (lt_irrefl _)
  have hmem : ∀ tid, tid ∈ (NewDesk.arm kind s).active ↔ tid ∈ s.active ∨ tid = s.ntimer :=
    fun tid => by
    simp [NewDesk.arm]
  refine ⟨?_, ?_, ?_, ?_, ?_, ?_⟩
  · intro tid htid
    change tid < s.ntimer + 1
    rcases (hmem tid).1 htid with htid | rfl
    · exact Nat.lt_succ_of_lt (h.old tid htid)
    · exact Nat.lt_succ_self _
  · simp [NewDesk.arm]
  · intro k
    rw [lookup_insert_eq, List.mem_append, List.mem_singleton]
    by_cases hk : k = kind
    · simp [hk]
    · rw [if_neg hk, h.keys k, or_iff_left hk]
  · intro k tid hk
    rw [lookup_insert_eq] at hk
    rw [hmem]
    split at hk
    · exact Or.inr (Option.some_inj.1 hk).symm
    · exact Or.inl (h.on k tid hk)
  · intro k k' tid hk hk'
    rw [lookup_insert_eq] at hk hk'
    split at hk
    · split at hk'
      · simp_all
      · rw [← hk] at hk'
        exact absurd hk' (hnew k')
    · split at hk'
      · rw [← hk'] at hk
        exact absurd hk (hnew k)
      · exact h.once k k' tid hk hk'
  · -- the timer that the table had for the kind is on, and the table has it no more
    have hvals : ∀ tid, tid ∈ vals (timers.insert kind s.ntimer) ↔
        tid = s.ntimer ∨ ∃ k, k ≠ kind ∧ timers.lookup k = some tid := by
      intro tid
      rw [mem_vals]
      constructor
      · rintro ⟨k, hk⟩
        rw [lookup_insert_eq] at hk
        split at hk
        · exact Or.inl (Option.some_inj.1 hk).symm
        · exact Or.inr ⟨k, by assumption, hk⟩
      · rintro (rfl | ⟨k, hne, hk⟩)
        · exact ⟨kind, AList.lookup_insert _⟩
        · exact ⟨k, by rw [lookup_insert_eq, if_neg hne, hk]⟩
    have hnodup : (armed ++ [kind]).Nodup ↔ armed.Nodup ∧ kind ∉ armed :=
      (List.perm_append_singleton kind armed).nodup_iff.trans (List.nodup_cons.trans and_comm)
    rw [hnodup]
    constructor
    · intro hall
      have hold : ∀ tid ∈ s.active, ∃ k, k ≠ kind ∧ timers.lookup k = some tid := by
        intro tid htid
        refine ((hvals tid).1 (hall tid ((hmem tid).2 (Or.inl htid)))).resolve_left ?_
        rintro rfl
        exact absurd (h.old _ htid) (lt_irrefl _)
      refine ⟨h.all.1 fun tid htid => ?_, fun hkind => ?_⟩
      · obtain ⟨k, -, hk⟩ := hold tid htid
        exact mem_vals.2 ⟨k, hk⟩
      · obtain ⟨tid, htid⟩ := Option.isSome_iff_exists.1 ((h.keys kind).2 hkind)
        obtain ⟨k, hne, hk⟩ := hold tid (h.on kind tid htid)
        exact hne (h.once k kind tid hk htid)
    · rintro ⟨hn, hkind⟩ tid htid
      refine (hvals tid).2 ?_
      rcases (hmem tid).1 htid with htid | rfl
      · obtain ⟨k, hk⟩ := mem_vals.1 (h.all.2 hn tid htid)
        refine Or.inr ⟨k, ?_, hk⟩
        rintro rfl
        exact hkind ((h.keys k).1 (by rw [hk]; rfl))
      · exact Or.inl rfl

theorem Arming.arm (h : Arming armed s) (kind : ℤ) : Arming (armed ++ [kind]) (arm kind s) := by
  obtain ⟨timers, hgame, hbooks⟩ := h.game
  refine ⟨h.count, h.gaming, h.err, h.freed, timers.insert kind s.ntimer, ?_, hbooks.arm kind⟩
  simp [NewDesk.arm, hgame]

/-- **The loop of `startalltimers`.** -/
theorem armFishes_goes (h : Arming armed s) (kinds : List ℤ) :
    ∃ t, w.Goes (armPoints kinds armed.length) (armFishes w kinds armed.length) s (.ok () t) ∧
      Arming (armed ++ kinds) t := by
  induction kinds generalizing armed s with
  | nil => exact ⟨s, passes_pure, by simpa using h⟩
  | cons kind kinds ih =>
      obtain ⟨t, ht, harm⟩ := ih (h.arm kind)
      rw [List.append_assoc, List.singleton_append] at harm
      rw [List.length_append, List.length_singleton] at ht
      refine ⟨t, ?_, harm⟩
      obtain ⟨timers, hgame, hbooks⟩ := h.game
      refine Passes.point ?_ ?_
      · refine left_game (b := armed.isEmpty) ?_ ?_ h.freed (by rw [h.count]; decide)
          (by rw [h.gaming]; decide)
          hgame rfl
        · cases armed <;> rfl
        · rw [hbooks.active, List.isEmpty_iff]
      · have hadd : w.Goes [] timerAdd s
            (.ok s.ntimer { s with active := s.active ++ [s.ntimer], ntimer := s.ntimer + 1 }) :=
              rfl
        refine hadd.bind ((passes_modify _).bind (Passes.point ?_ ht))
        refine left_lost rfl h.freed (not_recovers_of_active ?_)
        exact fun hnil => absurd hnil (by simp)

/-- **`startalltimers`**: afterwards `stopalltimers` stops every timer exactly if the kinds of the
fish are distinct. -/
theorem startalltimers_goes (hc : s.count = 1) (hg : s.gaming = some true) (he : s.err = none)
    (hf : s.freed = 0) (hgame : s.game = some {}) (ha : s.active = []) :
    ∃ t g, w.Goes (armPoints w.kinds 0 ++ [.buildFish, .armClear, .repeatClear])
    (startalltimers w) s
        (.ok () t) ∧
      t.count = 1 ∧ t.gaming = some true ∧ t.err = none ∧ t.freed = 0 ∧ t.game = some g ∧
      g.sync = true ∧ g.timers.isSome = true ∧ t.active ≠ [] ∧
      ((stopalltimers t).active = [] ↔ w.kinds.Nodup) := by
  have hbegin : Arming []
    { s with game := s.game.map fun g => { g with timers := some (g.timers.getD ∅) } } := by
    refine ⟨hc, hg, he, hf, ∅, by rw [hgame]; rfl, ?_⟩
    refine ⟨?_, by simp [ha], fun kind => by simp, fun kind tid hk => by simp at hk,
      fun kind kind' tid hk => by simp at hk, ?_⟩
    · rw [ha]
      exact nofun
    · rw [ha]
      exact iff_of_true nofun List.nodup_nil
  obtain ⟨u, hu, harm⟩ := armFishes_goes hbegin w.kinds
  obtain ⟨timers, hgu, hbooks⟩ := harm.game
  rw [List.nil_append] at hbooks
  have hcu : u.count ≠ 0 := by rw [harm.count]; decide
  have hgaming : u.gaming ≠ some false := by rw [harm.gaming]; decide
  have hempty : u.active = [] ↔ w.kinds.isEmpty = true := by
    rw [hbooks.active, List.isEmpty_iff]
  have hadd : w.Goes [] timerAdd u
      (.ok u.ntimer { u with active := u.active ++ [u.ntimer], ntimer := u.ntimer + 1 }) := rfl
  refine ⟨{ u with
      active := u.active ++ [u.ntimer]
      ntimer := u.ntimer + 1
      game := u.game.map fun g => { g with special := some u.ntimer } },
    { timers := some timers, special := some u.ntimer }, ?_, harm.count, harm.gaming, harm.err,
    harm.freed, by rw [hgu]; rfl, rfl, rfl, by simp, ?_⟩
  · refine (passes_modify _).bind (hu.bind (Passes.point ?_ (Passes.point ?_ (hadd.bind
      ((passes_modify _).bind (passes_point ?_))))))
    · exact left_game rfl hempty harm.freed hcu hgaming hgu rfl
    · exact left_game rfl hempty harm.freed hcu hgaming hgu rfl
    · exact left_lost rfl harm.freed (not_recovers_of_active (by simp))
  · -- the timer of `OnTimerClearTrace` is stopped by its name
    rw [← hbooks.all]
    have hstop : (stopalltimers { u with
        active := u.active ++ [u.ntimer]
        ntimer := u.ntimer + 1
        game := u.game.map fun g => { g with special := some u.ntimer } }).active =
        (u.active ++ [u.ntimer]).filter fun tid => tid ∉ vals timers ∧
          some tid ≠ some u.ntimer := by
      rw [hgu]
      rfl
    rw [hstop, List.filter_eq_nil_iff]
    constructor
    · intro hall tid htid
      have hne : tid ≠ u.ntimer := ne_of_lt (hbooks.old tid htid)
      by_contra hnot
      exact hall tid (List.mem_append_left _ htid) (by simp [hnot, hne])
    · intro hall tid htid
      rcases List.mem_append.1 htid with htid | htid
      · simp [hall tid htid]
      · simp [List.mem_singleton.1 htid]

/-- **`new_game`.** -/
theorem newGame_goes (hc : s.count = 1) (hg : s.gaming = some true) (he : s.err = none)
    (hf : s.freed = 0) (hgame : s.game = some {}) (ha : s.active = []) :
    ∃ t, w.Goes (.pushConfig :: (armPoints w.kinds 0 ++ [.buildFish, .armClear, .repeatClear,
        .waitGameend, .freeAll, .onGameend])) (newGame w) s (.ok () t) ∧
      t.count = 1 ∧ t.gaming = some true ∧ t.err = w.interrupt ∧ t.freed = 0 ∧
      t.game.isSome = true ∧
      (t.active = [] ↔ w.kinds.Nodup) := by
  obtain ⟨u, g, hu, huc, hug, hue, huf, hugame, husync, hutimers, huactive, hstop⟩ :=
    startalltimers_goes (w := w) hc hg he hf hgame ha
  have hint : interrupted w u = { u with err := w.interrupt } := by
    unfold interrupted
    cases hw : w.interrupt with
    | none =>
        change u = { u with err := none }
        rw [← hue]
    | some e => exact if_pos hug
  obtain ⟨timers, htimers⟩ := Option.isSome_iff_exists.1 hutimers
  have hstopped : stopalltimers (interrupted w u) =
      { u with err := w.interrupt, active := (stopalltimers u).active, game := some { g with
        timers := none, special := none } } := by
    rw [hint]
    unfold stopalltimers
    rw [hugame]
    dsimp only
    rw [htimers]
  refine
    ⟨{ u with err := w.interrupt, active := (stopalltimers u).active, game := some { g with
    timers := none, special := none, sync := false } },
    ?_, huc, hug, rfl, huf, rfl, hstop⟩
  refine Passes.point ?_ ?_
  · exact left_game (b := true) (by simp [World.mends]) (by simp [ha]) hf (by rw [hc]; decide)
      (by rw [hg]; decide) hgame rfl
  · have hrest : w.Goes [.waitGameend, .freeAll, .onGameend]
        (do w.point .waitGameend; modify (interrupted w); gameend w) u
        (.ok ()
        { u with err := w.interrupt, active := (stopalltimers u).active, game := some { g with
          timers := none, special := none, sync := false } }) := by
      refine Passes.point (left_lost rfl huf (not_recovers_of_active huactive)) ?_
      refine (passes_modify _).bind ((passes_modify _).bind ?_)
      rw [hstopped]
      refine Passes.point ?_ ((passes_modify _).bind (passes_point ?_))
      · exact left_game (b := decide w.kinds.Nodup) rfl (by simpa using hstop) huf
          (by rw [huc]; decide) (by rw [hug]; decide) rfl husync
      · exact left_lost rfl huf (not_recovers_of_sync rfl rfl)
    exact (hu.bind hrest).of_points (List.append_assoc _ _ _)

/-- The state after `gamestart`. -/
def begun : State := { count := 1, isstart := true, game := some {} }

/-- `desk:init`. -/
theorem init_goes : w.Goes [.sharedmod, .rolesCreate] (init w) { count := 1, isstart := true }
    (.ok () begun) := by
  refine (passes_modify _).bind (Passes.point ?_ (passes_point ?_))
  · exact left_game (b := true) (by simp [World.mends]) (by simp) rfl (by decide) nofun rfl rfl
  · exact left_game (b := true) (by simp [World.mends]) (iff_of_true rfl rfl) rfl
      (by decide) nofun rfl
      rfl

/-- **`gamestart`.** -/
theorem gamestart_goes (isstart : Bool) :
    w.Goes ((if isstart then [] else [.gamedbStart]) ++
      [.sharedmod, .rolesCreate, .pushGamestart, .onGamestart]) (gamestart w) (fresh isstart)
      (.ok () begun) := by
  have hgame : ∀ p, w.mends p = w.gameoverRuns → w.Left p begun := fun p hp =>
    left_game (b := true) (by simp [hp]) (by simp [begun]) rfl (by decide) nofun rfl rfl
  have hrest : w.Goes [.sharedmod, .rolesCreate, .pushGamestart, .onGamestart]
      (do init w; w.point .pushGamestart; w.point .onGamestart) { count := 1, isstart := true }
      (.ok () begun) :=
    init_goes.bind (Passes.point (hgame _ rfl) (passes_point (hgame _ rfl)))
  refine (passes_modify _).bind (passes_get.bind ?_)
  cases isstart with
  | true => exact hrest
  | false =>
      refine Passes.point ?_ ((passes_modify _).bind hrest)
      exact left_early (by simp [World.mends, fresh]) rfl rfl rfl rfl

/-- **`do_game`.** -/
theorem doGame_goes (isstart : Bool) :
    ∃ t, w.Goes (w.gamePoints isstart) (doGame w) (fresh isstart) (.ok () t) ∧ t.count = 1 ∧
      t.err = w.interrupt ∧ t.freed = 0 ∧ (t.active = [] ↔ w.kinds.Nodup) := by
  have hgame : ∀ p, w.mends p = w.gameoverRuns → w.Left p begun := fun p hp =>
    left_game (b := true) (by simp [hp]) (by simp [begun]) rfl (by decide) nofun rfl rfl
  have hplay : w.Left .attachAI { begun with gaming := some true } :=
    left_game (b := true) (by simp [World.mends]) (by simp [begun]) rfl (by decide) nofun rfl rfl
  obtain ⟨u, hu, hc, -, he, hf, hg, ha⟩ :=
    newGame_goes (w := w) (s := { begun with gaming := some true }) rfl rfl rfl rfl rfl rfl
  obtain ⟨g, hug⟩ := Option.isSome_iff_exists.1 hg
  have hover : ∀ p, w.mends p = false → w.Left p { u with game := none, gaming := some false } :=
    fun p hp => left_lost hp hf (not_recovers_of_gaming rfl)
  refine ⟨{ u with game := none, gaming := some false }, ?_, hc, he, hf, ha⟩
  have hstart : w.Goes (.attachAI :: .pushConfig :: (armPoints w.kinds 0 ++ [.buildFish, .armClear,
      .repeatClear, .waitGameend, .freeAll, .onGameend])) (start w)
      { begun with gaming := some true }
      (.ok (some g) { u with game := none }) := by
    have hend : w.Goes [] (do let s ← get; modify fun s => { s with game := none }; return s.game) u
        (.ok (some g) { u with game := none }) := by
      rw [← hug]
      rfl
    exact (Passes.point hplay (hu.bind hend)).of_points (by simp)
  have hrest : w.Goes [.gameover false, .saveGameResult false]
      (do modify fun s => { s with gaming := some false }; gameover w false (some g))
      { u with game := none } (.ok () { u with game := none, gaming := some false }) :=
    (passes_modify _).bind (Passes.point (hover _ rfl) (passes_point (hover _ rfl)))
  refine ((gamestart_goes isstart).bind (Passes.point (hgame _ rfl) (Passes.point (hgame _ rfl)
    (Passes.point (hgame _ rfl) (Passes.point (hgame _ rfl) ((passes_modify _).bind
      (hstart.bind hrest))))))).of_points ?_
  simp [World.gamePoints]

/-- **`start_desk`**: where it stops, and what it leaves behind. -/
theorem startDesk_passes (isstart : Bool) :
    ∃ t : State, t.freed = 0 ∧ (w.ready = false → t.count = 0 ∧ t.active = [] ∧ t.err = none) ∧
      (w.ready = true → t.count = 1 ∧ (t.active = [] ↔ w.kinds.Nodup) ∧ t.err = w.interrupt) ∧
      w.Goes (w.points isstart) (startDesk w) (fresh isstart)
        (match t.err with
          | some e => .error (.dismissed e) t
          | none => .ok () t) := by
  -- the end of `start_desk`
  have hend : ∀ t : State, w.Goes []
      (do modify fun s => { s with isstart := false }
          let s ← get
          match s.err with
          | some e => throw (.dismissed e)
          | none => pure ()) t
      (match t.err with
        | some e => .error (.dismissed e) { t with isstart := false }
        | none => .ok () { t with isstart := false }) := by
    intro t
    refine (passes_modify _).bind (passes_get.bind ?_)
    dsimp only
    cases t.err with
    | none => exact passes_pure
    | some e => exact passes_throw _
  have hearly : ∀ p, w.mends p = !w.raises .backRoomcard → w.Left p (fresh isstart) := fun p hp =>
    left_early (by simp [hp, fresh]) rfl rfl rfl rfl
  have hbody : ∃ t : State,
    t.freed = 0 ∧ (w.ready = false → t.count = 0 ∧ t.active = [] ∧ t.err = none) ∧
      (w.ready = true → t.count = 1 ∧ (t.active = [] ↔ w.kinds.Nodup) ∧ t.err = w.interrupt) ∧
      w.Goes (if w.ready then w.gamePoints isstart else [])
        (if w.ready then doGame w else pure ()) (fresh isstart) (.ok () t) := by
    cases hr : w.ready with
    | false => exact ⟨fresh isstart, rfl, fun _ => ⟨rfl, rfl, rfl⟩, nofun, passes_pure⟩
    | true =>
        obtain ⟨t, ht, hc, he, hf, ha⟩ := doGame_goes (w := w) isstart
        exact ⟨t, hf, nofun, fun _ => ⟨hc, ha, he⟩, ht⟩
  obtain ⟨t, hf, hno, hyes, ht⟩ := hbody
  refine ⟨{ t with isstart := false }, hf, hno, hyes, ?_⟩
  have hwait : w.Goes (.waitReady :: if w.ready then w.gamePoints isstart else [])
      (do w.point .waitReady
          if w.ready then
            doGame w
          modify fun s => { s with isstart := false }
          let s ← get
          match s.err with
          | some e => throw (.dismissed e)
          | none => pure ()) (fresh isstart)
      (match t.err with
        | some e => .error (.dismissed e) { t with isstart := false }
        | none => .ok () { t with isstart := false }) := by
    refine Passes.point (hearly _ rfl) ?_
    cases hr : w.ready with
    | false =>
        rw [hr] at ht
        obtain rfl : fresh isstart = t := (EStateM.Result.ok.inj (ht.result rfl)).2
        exact hend _
    | true =>
        rw [hr] at ht
        exact (ht.bind (hend t)).of_points (List.append_nil _)
  unfold startDesk World.points
  cases hr : w.robots with
  | false => exact hwait
  | true => exact Passes.point (hearly _ rfl) hwait

/-! ### The handler -/

/-- **`desk:force`.** -/
theorem force_eq (t : State) : force t =
    if t.gaming = some false then .error .noMethod t
    else match t.game with
      | none => .ok none t
      | some g => if g.sync then .ok (some g) t else .error .noSync t := by
  change (if t.gaming = some false then throw Err.noMethod else _ : Lua (Option GameObj)) t = _
  split
  · rfl
  · cases t.game with
    | none => rfl
    | some g => cases hs : g.sync <;> simp [hs] <;> rfl

/-- A point. -/
theorem point_eq (p : Point) (t : State) :
    w.point p t = if w.raises p then .error (.fault p) t else .ok () t := rfl

/-- **`gameover`.** -/
theorem gameover_eq (t : State) (g : Option GameObj) :
    (g.isSome = true → w.gameoverRuns = true) ∧ gameover w true g t = .ok () t ∨
      (g.isSome = true ∧ w.gameoverRuns = false) ∧ ∃ p,
      gameover w true g t = .error (.fault p) t := by
  cases g with
  | none => exact Or.inl ⟨nofun, rfl⟩
  | some g =>
      have heq : gameover w true (some g) t =
          EStateM.bind (w.point (.gameover true)) (fun _ => w.point (.saveGameResult true)) t := rfl
      rw [heq]
      unfold EStateM.bind
      rw [point_eq]
      cases h₁ : w.raises (.gameover true) with
      | true => exact Or.inr ⟨⟨rfl, by simp [World.gameoverRuns, h₁]⟩, _, rfl⟩
      | false =>
          dsimp only
          cases h₂ : w.raises (.saveGameResult true) with
          | true => exact Or.inr ⟨⟨rfl, by simp [World.gameoverRuns, h₂]⟩, .saveGameResult true,
            by simp [point_eq, h₂]⟩
          | false =>
              exact Or.inl ⟨fun _ => by simp [World.gameoverRuns, h₁, h₂], by simp [point_eq, h₂]⟩

/-- The error handler of an error that has no handler of its own. -/
theorem handle_eq (t : State) (p : Point) :
    (t.gaming ≠ some false ∧ (∀ g, t.game = some g → g.sync = true ∧ w.gameoverRuns = true)) ∧
        handle w (.fault p) t = .ok () t ∨
      ¬ (t.gaming ≠ some false ∧ (∀ g, t.game = some g → g.sync = true ∧ w.gameoverRuns = true)) ∧
        ∃ e, handle w (.fault p) t = .error e t := by
  have heq : handle w (.fault p) t = EStateM.bind force (gameover w true) t := rfl
  rw [heq]
  unfold EStateM.bind
  rw [force_eq]
  by_cases hg : t.gaming = some false
  · rw [if_pos hg]
    exact Or.inr ⟨fun h => h.1 hg, _, rfl⟩
  · rw [if_neg hg]
    cases hgame : t.game with
    | none => exact Or.inl ⟨⟨hg, nofun⟩, rfl⟩
    | some g =>
        dsimp only
        cases hs : g.sync with
        | false =>
            refine Or.inr ⟨fun h => ?_, _, rfl⟩
            rw [(h.2 g rfl).1] at hs
            cases hs
        | true =>
            rcases gameover_eq (w := w) t (some g) with ⟨hruns, hover⟩ | ⟨⟨-, hruns⟩, p', hover⟩
            · refine Or.inl ⟨⟨hg, fun g' hg' => ?_⟩, hover⟩
              obtain rfl := Option.some_inj.1 hg'
              exact ⟨hs, hruns rfl⟩
            · refine Or.inr ⟨fun h => ?_, _, hover⟩
              rw [(h.2 g rfl).2] at hruns
              cases hruns

/-- What follows `start_desk` when it raises. -/
def recover (w : World) (e : Err) : Lua Unit := do
  handle w e
  let s ← get
  if s.count = 0 then
    w.point .backRoomcard

theorem newDesk_eq (s : State) : newDesk w s =
    match startDesk w s with
    | .ok _ t => freeDesk t
    | .error e t => EStateM.bind (recover w e) (fun _ => freeDesk) t := by
  have htry : tryCatch (startDesk w) (recover w) s =
      match startDesk w s with
      | .ok a t => .ok a t
      | .error e t => recover w e t := by
    change EStateM.tryCatch (startDesk w) (recover w) s = _
    unfold EStateM.tryCatch
    cases startDesk w s <;> rfl
  change EStateM.bind (tryCatch (startDesk w) (recover w)) (fun _ => freeDesk) s = _
  unfold EStateM.bind
  rw [htry]
  cases startDesk w s <;> rfl

/-- **The handler mends exactly the states it can cope with.** -/
theorem cleansUp_recover (p : Point) (hf : t.freed = 0) :
    CleansUp (final (EStateM.bind (recover w (.fault p)) fun _ => freeDesk) t) ↔ w.Recovers t := by
  have hback : recover w (.fault p) t =
      match handle w (.fault p) t with
      | .ok _ u => if u.count = 0 then w.point .backRoomcard u else .ok () u
      | .error e u => .error e u := by
    change EStateM.bind (handle w (.fault p)) (fun _ => EStateM.bind EStateM.get fun s =>
      if s.count = 0 then w.point .backRoomcard else pure ()) t = _
    unfold EStateM.bind
    cases handle w (.fault p) t with
    | ok _ u =>
        dsimp only [EStateM.get]
        split <;> rfl
    | error e u => rfl
  unfold final EStateM.bind
  rw [hback]
  rcases handle_eq (w := w) t p with ⟨⟨hg, hgame⟩, h⟩ | ⟨hnot, e, h⟩
  · rw [h]
    dsimp only
    by_cases hc : t.count = 0
    · rw [if_pos hc, point_eq]
      cases hr : w.raises .backRoomcard with
      | true =>
          refine iff_of_false (fun hclean => ?_) fun hrec => ?_
          · exact absurd (hf.symm.trans hclean.1) (by decide)
          · exact absurd (hr.symm.trans (hrec.2.2.1 hc)) (by decide)
      | false =>
          constructor
          · rintro ⟨-, ha⟩
            exact ⟨hg, hgame, fun _ => hr, ha⟩
          · rintro ⟨-, -, -, ha⟩
            exact ⟨congrArg (· + 1) hf, ha⟩
    · rw [if_neg hc]
      constructor
      · rintro ⟨-, ha⟩
        exact ⟨hg, hgame, fun h => absurd h hc, ha⟩
      · rintro ⟨-, -, -, ha⟩
        exact ⟨congrArg (· + 1) hf, ha⟩
  · rw [h]
    refine iff_of_false (fun hclean => ?_) fun hrec => hnot ⟨hrec.1, hrec.2.1⟩
    exact absurd (hf.symm.trans hclean.1) (by decide)

/-- A dismissal has a handler of its own. -/
theorem recover_dismissed (e : DeskErr) (hc : t.count ≠ 0) :
    recover w (.dismissed e) t = w.point .pushDismiss t := by
  change EStateM.bind (w.point .pushDismiss) (fun _ => EStateM.bind EStateM.get fun s =>
    if s.count = 0 then w.point .backRoomcard else pure ()) t = _
  unfold EStateM.bind
  rw [point_eq]
  cases w.raises .pushDismiss with
  | true => rfl
  | false =>
      change (if t.count = 0 then w.point .backRoomcard else pure ()) t = _
      rw [if_neg hc]
      rfl

/-- **`new_desk` cleans up exactly in the worlds that meet the condition.** -/
theorem cleansUp_iff (w : World) (isstart : Bool) :
    CleansUp (final (newDesk w) (fresh isstart)) ↔ w.tidy isstart = true := by
  obtain ⟨t, hf, hno, hyes, hgoes⟩ := startDesk_passes (w := w) isstart
  unfold World.tidy final
  rw [newDesk_eq]
  cases hp : (w.points isstart).find? w.raises with
  | some p =>
      obtain ⟨u, hu, huf, hleft⟩ := hgoes.error hp
      rw [hu, ← hleft]
      exact cleansUp_recover p huf
  | none =>
      rw [hgoes.result hp]
      cases hr : w.ready with
      | false =>
          obtain ⟨-, ha, he⟩ := hno hr
          rw [he]
          exact iff_of_true ⟨congrArg (· + 1) hf, ha⟩ rfl
      | true =>
          obtain ⟨hc, ha, he⟩ := hyes hr
          rw [he]
          cases hi : w.interrupt with
          | none =>
              have hfreed : t.freed + 1 = 1 := congrArg (· + 1) hf
              change (t.freed + 1 = 1 ∧ t.active = []) ↔ _
              rw [ha]
              simp [hfreed]
          | some e =>
              have hne : t.count ≠ 0 := by
                rw [hc]
                decide
              unfold EStateM.bind
              dsimp only
              rw [recover_dismissed e hne, point_eq]
              cases hpush : w.raises .pushDismiss with
              | true =>
                  refine iff_of_false (fun hclean => ?_) (by simp)
                  exact absurd (hf.symm.trans hclean.1) (by decide)
              | false =>
                  have hfreed : t.freed + 1 = 1 := congrArg (· + 1) hf
                  change (t.freed + 1 = 1 ∧ t.active = []) ↔ _
                  rw [ha]
                  simp [hfreed]

/-- **A desk whose result cannot be saved is never freed**: `d.gaming` is `false`, and the handler
finds no method `force`. -/
theorem save_not_freed : ¬ ∀ (w : World) (isstart : Bool),
    CleansUp (final (newDesk w) (fresh isstart)) := by
  intro hall
  have hclean := hall { raises := fun p => p = .saveGameResult false, kinds := [1, 2] } false
  exact absurd hclean (by decide +kernel)

/-- An error while the game is waiting for its end leaves the timers on. -/
example : ((final (newDesk { raises := fun p => p = .waitGameend, kinds := [1, 2] })
    (fresh false)).freed, (final (newDesk { raises := fun p => p = .waitGameend, kinds := [1, 2] })
    (fresh false)).active) = (1, [1, 2, 3]) := by decide +kernel

/-! ### The desk service -/

/-- The state of a desk of the service. -/
def ofDesk (d : Desk) : State where
  count := d.count
  isstart := d.isstart
  gaming := d.gaming
  err := d.err
  game := d.mygame.map fun _ => {}

/-- **The handler is that of the desk service**: it raises there when `d:force()` does, and goes on
to its end when there is no game. -/
theorem unhandled_of_force (d : Desk) :
    (force (ofDesk d) = .error .noMethod (ofDesk d) →
      unhandled d = .ret d (.raise "attempt to call a nil value (method 'force')")) ∧
    (force (ofDesk d) = .ok none (ofDesk d) → unhandled d = afterError d) := by
  rw [force_eq]
  unfold unhandled
  by_cases hg : d.gaming = some false
  · have hg' : (ofDesk d).gaming = some false := hg
    rw [if_pos hg', if_pos hg]
    exact ⟨fun _ => rfl, nofun⟩
  · have hg' : ¬ (ofDesk d).gaming = some false := hg
    rw [if_neg hg', if_neg hg]
    cases hm : d.mygame with
    | none =>
        refine ⟨fun h => ?_, fun _ => rfl⟩
        simp [ofDesk, hm] at h
    | some g => simp [ofDesk, hm]

end Halieutics.NewDesk
