/-
**The login service: `service/login.lua`.**

The login service hands every user that has been authenticated to a gate.  A gate has a counter of
clients, raised when a user is sent to it and lowered when the user logs out; the record of the user
in `app.online` says which counter that is.  A login yields three times: at `auth.handshake`, at
`watchdog.try_kick` when the user is online already, and at `gate.login`; logins of one user may
therefore overlap with each other and with `server.logout` and `server.restore`.

The counter of a gate should be the number of records that name it.  It is, as long as no login goes
on over a record that is still there: `watchdog.try_kick` logs a user out only when the watchdog
knows him, so a user who logs in twice before he has signed in on the gate keeps his first slot for
ever.

Main definitions:

* `Server` — the tables of the service, with `GateConf`, `App` and `OnlineUser`;
* `Counter.next`, `assignGate` — the closure of `assign_counter`, and `assign_gate`;
* `login`, `logout`, `restore` — `cli:login` up to its first yield, `server.logout`,
  `server.restore`;
* `service` — the service as a machine;
* `onlineOn`, `Accounted` — the records that name a gate, and the accounting.

Main results:

* `assignGate_cases` — what `assign_gate` does;
* `Accounted.setOnline`, `Accounted.logout` — what a login and a logout do to the accounting;
* `accounted_of_kickedOut` — **the counters count the records**, in every run in which a login goes
  on after `try_kick` only when the old record is gone;
* `login_twice_leaks_slot` — **a second login before the sign-in leaks a slot**.
-/

import Halieutics.Coroutine
import Halieutics.LuaTable

set_option relaxedAutoImplicit false
set_option autoImplicit false

namespace Halieutics.Login

open Coroutine LuaTable

/-- The `conf` of a gate, which is known by the address of its service. -/
structure GateConf where
  app : String
  client : ℤ := 0
  maxclient : ℤ := 1024

/-- A record of `app.online`: the user and his gate. -/
structure OnlineUser where
  id : ℕ
  gate : ℕ

/-- An `app`. -/
structure App where
  platforms : Table String (List ℕ) := ∅
  version : Table String ℕ := ∅
  online : Table ℕ OnlineUser := ∅

/-- The closure of `assign_counter`: the gates, and where the next round begins. -/
structure Counter where
  gates : List ℕ
  idx : ℕ := 0

/-- The tables of the service. -/
structure Server where
  shutdown : Bool := false
  apps : Table String App := ∅
  /-- `service_gate` and `service_app`. -/
  gates : Table ℕ GateConf := ∅
  gateCounter : Table String Counter := ∅

/-- The errors of `cli:login`. -/
inductive Em where
  | shutdown | appExists | platformNoexists | oldVersion | unauth | refused |
    inBlacklist | serverBusy
  deriving DecidableEq, Repr

/-- What a handler returns; `raise` is a Lua error. -/
inductive Ret where
  | nil | ok
  | err (e : Em)
  | restored
  | raise (msg : String)
  deriving DecidableEq, Repr

/-- What `auth.handshake` returns. -/
inductive Auth where
  | raised
  | refused
  | user (id : ℕ) (forbidden : Bool)

/-- What the world supplies to a segment: the result of `auth.handshake`, or whether another remote
call raised. -/
structure Inp where
  auth : Auth := .raised
  raised : Bool := false

/-- The yields of `cli:login`. -/
inductive Pc where
  | handshake (app platform : String)
  | tryKick (app platform : String) (id : ℕ)
  | gateLogin (id gate : ℕ)

/-- How a segment ends. -/
inductive Out where
  | ret (s : Server) (r : Ret)
  | wait (s : Server) (pc : Pc)

/-- The tables after a segment. -/
def Out.server : Out → Server
  | .ret s _ => s
  | .wait s _ => s

/-- Where the coroutine is suspended. -/
def Out.pcs : Out → List Pc
  | .ret _ _ => []
  | .wait _ pc => [pc]

/-! ### Assigning a gate -/

/-- The index after `idx`, counted from 1. -/
def Counter.after (c : Counter) (idx : ℕ) : ℕ := if c.gates.length < idx + 1 then 1 else idx + 1

/-- The loop of `assign_counter`, from `idx` until it is back at `src`.  There are as many rounds as
there are gates. -/
def Counter.loop (c : Counter) (free : ℕ → Bool) (src : ℕ) : ℕ → ℕ → ℕ × Option ℕ
  | 0, idx => (idx, none)
  | rounds + 1, idx =>
      match c.gates[idx - 1]? with
      | none => (idx, none)
      | some g =>
          if free g then (idx, some g)
          else if c.after idx = src then (c.after idx, none)
          else c.loop free src rounds (c.after idx)

/-- The function that `assign_counter` returns. -/
def Counter.next (c : Counter) (free : ℕ → Bool) : Counter × Option ℕ :=
  let src := c.after c.idx
  let r := c.loop free src c.gates.length src
  ({ c with idx := r.1 }, r.2)

/-- `g.client < g.maxclient`. -/
def Server.free (s : Server) (g : ℕ) : Bool :=
  match s.gates.lookup g with
  | none => false
  | some conf => decide (conf.client < conf.maxclient)

/-- Changing the counter of a gate. -/
def Server.addClient (s : Server) (g : ℕ) (n : ℤ) : Server :=
  match s.gates.lookup g with
  | none => s
  | some conf => { s with gates := s.gates.insert g { conf with client := conf.client + n } }

/-- **`assign_gate`**. -/
def assignGate (s : Server) (app platform : String) : Server × Option ℕ :=
  let name := app ++ "." ++ platform
  match s.gateCounter.lookup name with
  | none => (s, none)
  | some c =>
      let r := c.next s.free
      let s := { s with gateCounter := s.gateCounter.insert name r.1 }
      match r.2 with
      | none => (s, none)
      | some g => (s.addClient g 1, some g)

/-! ### Logging in and out -/

/-- Changing `app.online`. -/
def Server.onOnline (s : Server) (app : String) (f : Table ℕ OnlineUser → Table ℕ OnlineUser) :
    Server :=
  match s.apps.lookup app with
  | none => s
  | some a => { s with apps := s.apps.insert app { a with online := f a.online } }

/-- `app.online[id]`. -/
def Server.record (s : Server) (app : String) (id : ℕ) : Option OnlineUser :=
  (s.apps.lookup app).bind fun a => a.online.lookup id

/-- `cli:login` from the assignment of a gate up to `gate.login`. -/
def loginAssign (s : Server) (app platform : String) (id : ℕ) : Out :=
  match assignGate s app platform with
  | (s, none) => .ret s (.err .serverBusy)
  | (s, some g) => .wait (s.onOnline app fun t => t.insert id ⟨id, g⟩) (.gateLogin id g)

/-- **`cli:login`** up to `auth.handshake`. -/
def login (s : Server) (app platform : String) (version : Option ℕ) : Out :=
  if s.shutdown then .ret s (.err .shutdown)
  else
    match s.apps.lookup app with
    | none => .ret s (.err .appExists)
    | some a =>
        if (a.platforms.lookup platform).isNone then .ret s (.err .platformNoexists)
        else
          match a.version.lookup platform with
          | none => .wait s (.handshake app platform)
          | some v =>
              if version.getD 0 < v then .ret s (.err .oldVersion)
              else .wait s (.handshake app platform)

/-- **`server.logout`**, called by the gate `source`. -/
def logout (s : Server) (source id : ℕ) : Out :=
  match s.gates.lookup source with
  | none => .ret s (.raise " no app")
  | some conf =>
      match s.record conf.app id with
      | none => .ret s (.raise "no user ")
      | some user => .ret ((s.addClient user.gate (-1)).onOnline conf.app fun t => t.erase id) .nil

/-- **`server.restore`**, called by the gate `source`. -/
def restore (s : Server) (source id : ℕ) : Out :=
  match s.gates.lookup source with
  | none => .ret s (.raise " no app")
  | some conf =>
      match s.record conf.app id with
      | some _ => .ret s .nil
      | none =>
          .ret ((s.addClient source 1).onOnline conf.app fun t => t.insert id ⟨id, source⟩)
            .restored

/-- The segments of `cli:login` after its yields. -/
def resume (s : Server) (inp : Inp) : Pc → Out
  | .handshake app platform =>
      match inp.auth with
      | .raised => .ret s (.err .unauth)
      | .refused => .ret s (.err .refused)
      | .user id forbidden =>
          if forbidden then .ret s (.err .inBlacklist)
          else
            match s.record app id with
            | some _ => .wait s (.tryKick app platform id)
            | none => loginAssign s app platform id
  | .tryKick app platform id =>
      if inp.raised then .ret s (.raise "call failed") else loginAssign s app platform id
  | .gateLogin _ _ => .ret s (if inp.raised then .raise "call failed" else .ok)

/-- The requests of the service. -/
inductive Req where
  | login (app platform : String) (version : Option ℕ)
  | logout (source id : ℕ)
  | restore (source id : ℕ)

/-- The first segment of a request. -/
def direct (s : Server) : Req → Out
  | .login app platform version => login s app platform version
  | .logout source id => logout s source id
  | .restore source id => restore s source id

/-- **The login service as a machine.** -/
def service : Machine Server Pc Req Inp where
  call s r _ := ((direct s r).server, (direct s r).pcs)
  resume s pc inp := some ((resume s inp pc).server, (resume s inp pc).pcs)

/-! ### The accounting -/

/-- The records of a table that name a gate. -/
def namedIn (t : Table ℕ OnlineUser) (g : ℕ) : ℕ := (vals t).countP fun u => u.gate == g

/-- **The records that name a gate**, of all apps. -/
def onlineOn (s : Server) (g : ℕ) : ℕ := ((vals s.apps).map fun a => namedIn a.online g).sum

/-- Every counter is the number of records that name its gate. -/
def Accounted (s : Server) : Prop :=
  ∀ g conf, s.gates.lookup g = some conf → conf.client = onlineOn s g

/-- The gates belong to apps. -/
def Hosted (s : Server) : Prop :=
  ∀ g conf, s.gates.lookup g = some conf → (s.apps.lookup conf.app).isSome = true

/-- The state after the gates have registered. -/
structure Registered (s : Server) : Prop where
  client : ∀ g conf, s.gates.lookup g = some conf → conf.client = 0
  online : ∀ a ∈ vals s.apps, a.online = ∅
  hosted : Hosted s

section Accounting

variable {s : Server} {app : String} {id g : ℕ}

/-- A new record names its gate. -/
theorem namedIn_insert {t : Table ℕ OnlineUser} (h : t.lookup id = none) (g g' : ℕ) :
    namedIn (t.insert id ⟨id, g⟩) g' = namedIn t g' + if g' = g then 1 else 0 := by
  rw [namedIn, namedIn, vals_insert h, List.countP_cons]
  simp only [beq_iff_eq, eq_comm (a := g)]

/-- A record that goes names its gate no longer. -/
theorem namedIn_erase {t : Table ℕ OnlineUser} {u : OnlineUser} (h : t.lookup id = some u)
    (g' : ℕ) : namedIn t g' = namedIn (t.erase id) g' + if g' = u.gate then 1 else 0 := by
  rw [namedIn, namedIn, (vals_perm_erase h).countP_eq, List.countP_cons]
  simp only [beq_iff_eq, eq_comm (a := u.gate)]

/-- Changing the records of one app. -/
theorem onlineOn_onOnline {a : App} (ha : s.apps.lookup app = some a)
    (f : Table ℕ OnlineUser → Table ℕ OnlineUser) (g : ℕ) :
    onlineOn (s.onOnline app f) g + namedIn a.online g
      = onlineOn s g + namedIn (f a.online) g := by
  have hnew : onlineOn (s.onOnline app f) g = namedIn (f a.online) g
      + ((vals (s.apps.erase app)).map fun a => namedIn a.online g).sum := by
    simp only [onlineOn, Server.onOnline, ha]
    rfl
  have hold : onlineOn s g = namedIn a.online g
      + ((vals (s.apps.erase app)).map fun a => namedIn a.online g).sum := by
    rw [onlineOn, ((vals_perm_erase ha).map _).sum_eq, List.map_cons, List.sum_cons]
  omega

theorem apps_addClient (s : Server) (g : ℕ) (n : ℤ) : (s.addClient g n).apps = s.apps := by
  unfold Server.addClient
  split <;> rfl

/-- The counter that was changed, and the others. -/
theorem lookup_addClient (s : Server) (g g' : ℕ) (n : ℤ) :
    (s.addClient g n).gates.lookup g' =
      (s.gates.lookup g').map fun conf =>
        if g' = g then { conf with client := conf.client + n } else conf := by
  unfold Server.addClient
  cases hg : s.gates.lookup g with
  | none =>
      by_cases hgg : g' = g
      · rw [hgg, hg]
        rfl
      · simp only [if_neg hgg, Option.map_id']
  | some conf =>
      dsimp only
      rw [lookup_insert_eq]
      by_cases hgg : g' = g
      · rw [if_pos hgg, hgg, hg, Option.map_some, if_pos rfl]
      · simp only [if_neg hgg, Option.map_id']

theorem gates_onOnline (s : Server) (app : String)
    (f : Table ℕ OnlineUser → Table ℕ OnlineUser) : (s.onOnline app f).gates = s.gates := by
  unfold Server.onOnline
  split <;> rfl

/-- A counter and the records change together. -/
theorem Accounted.change (h : Accounted s) {a : App} (ha : s.apps.lookup app = some a) {n : ℤ}
    {f : Table ℕ OnlineUser → Table ℕ OnlineUser}
    (hf : ∀ g', (namedIn (f a.online) g' : ℤ) = namedIn a.online g' + if g' = g then n else 0) :
    Accounted ((s.addClient g n).onOnline app f) := by
  intro g' conf hconf
  rw [gates_onOnline, lookup_addClient] at hconf
  obtain ⟨conf', hconf', rfl⟩ := Option.map_eq_some_iff.1 hconf
  have hcount := onlineOn_onOnline (s := s.addClient g n) (by rw [apps_addClient]; exact ha) f g'
  have hsame : onlineOn (s.addClient g n) g' = onlineOn s g' := by
    rw [onlineOn, apps_addClient, onlineOn]
  have hclient := h g' conf' hconf'
  have hf' := hf g'
  by_cases hgg : g' = g
  · rw [if_pos hgg] at hf'
    rw [if_pos hgg]
    dsimp only
    omega
  · rw [if_neg hgg] at hf'
    rw [if_neg hgg]
    omega

theorem record_eq_some {u : OnlineUser} (h : s.record app id = some u) :
    ∃ a, s.apps.lookup app = some a ∧ a.online.lookup id = some u :=
  Option.bind_eq_some_iff.1 h

/-- **A user comes online** on a gate. -/
theorem Accounted.setOnline (h : Accounted s) (happ : (s.apps.lookup app).isSome = true)
    (hrec : s.record app id = none) (g : ℕ) :
    Accounted ((s.addClient g 1).onOnline app fun t => t.insert id ⟨id, g⟩) := by
  obtain ⟨a, ha⟩ := Option.isSome_iff_exists.1 happ
  have hnone : a.online.lookup id = none := by simpa [Server.record, ha] using hrec
  refine h.change ha fun g' => ?_
  rw [namedIn_insert hnone]
  split <;> simp

/-- **A user goes offline.** -/
theorem Accounted.logout {u : OnlineUser} (h : Accounted s) (hrec : s.record app id = some u) :
    Accounted ((s.addClient u.gate (-1)).onOnline app fun t => t.erase id) := by
  obtain ⟨a, ha, hu⟩ := record_eq_some hrec
  refine h.change ha fun g' => ?_
  have := namedIn_erase hu g'
  split <;> simp_all

end Accounting

/-! ### The round of `assign_counter` -/

/-- The gate that the round ends at is free. -/
theorem loop_free (c : Counter) (free : ℕ → Bool) (src rounds idx : ℕ) {g : ℕ}
    (h : (c.loop free src rounds idx).2 = some g) : free g = true := by
  induction rounds generalizing idx with
  | zero => simp [Counter.loop] at h
  | succ rounds ih =>
      unfold Counter.loop at h
      split at h
      · simp at h
      · rename_i g' _
        split at h
        · rename_i hfree
          obtain rfl : g' = g := by simpa using h
          exact hfree
        · split at h
          · simp at h
          · exact ih _ h

/-- **What `assign_gate` does**: nothing is free, or a free gate gets a client. -/
theorem assignGate_cases (s : Server) (app platform : String) :
    ∃ counter, (assignGate s app platform = ({ s with gateCounter := counter }, none)) ∨
      ∃ g, s.free g = true ∧
        assignGate s app platform = ({ s with gateCounter := counter }.addClient g 1, some g) := by
  unfold assignGate
  dsimp only
  split
  · exact ⟨s.gateCounter, Or.inl rfl⟩
  · rename_i c _
    refine ⟨s.gateCounter.insert (app ++ "." ++ platform) (c.next s.free).1, ?_⟩
    cases hg : (c.next s.free).2 with
    | none => exact Or.inl rfl
    | some g => exact Or.inr ⟨g, loop_free c s.free _ _ _ hg, rfl⟩

/-! ### Runs -/

/-- The app of a login that waits. -/
def Pc.app? : Pc → Option String
  | .handshake app _ => some app
  | .tryKick app _ _ => some app
  | .gateLogin _ _ => none

/-- **The old record is gone**: a login that goes on after `try_kick`, without an error and with a
gate that is free, finds no record of the user. -/
def kickedOut (s : Pool Server Pc) : Event Req Inp → Bool
  | .call _ _ => true
  | .resume k inp =>
      match s.cos[k]? with
      | some (.tryKick app platform id) =>
          inp.raised || (assignGate s.shared app platform).2.isNone ||
            (s.shared.record app id).isNone
      | _ => true

/-- **What a segment does to the tables**: nothing that is counted, or a user comes online who was
not, or a user goes offline. -/
inductive Change (s : Server) : Server → Prop
  | same {s' : Server} : s'.apps = s.apps → s'.gates = s.gates → Change s s'
  | online {counter : Table String Counter} {app : String} {id g : ℕ} :
      (s.apps.lookup app).isSome = true → s.record app id = none →
      Change s ((Server.addClient { s with gateCounter := counter } g 1).onOnline app
        fun t => t.insert id ⟨id, g⟩)
  | offline {app : String} {id : ℕ} {u : OnlineUser} : s.record app id = some u →
      Change s ((s.addClient u.gate (-1)).onOnline app fun t => t.erase id)

section Changes

variable {s s' : Server}

theorem Change.accounted (h : Change s s') (hs : Accounted s) : Accounted s' := by
  cases h with
  | same happs hgates =>
      intro g conf hconf
      rw [hgates] at hconf
      rw [hs g conf hconf, onlineOn, onlineOn, happs]
  | @online counter _ _ g happ hrec =>
      exact Accounted.setOnline (s := { s with gateCounter := counter }) hs happ hrec g
  | offline hrec => exact hs.logout hrec

theorem apps_onOnline (s : Server) (app app' : String)
    (f : Table ℕ OnlineUser → Table ℕ OnlineUser) (h : (s.apps.lookup app').isSome = true) :
    ((s.onOnline app f).apps.lookup app').isSome = true := by
  unfold Server.onOnline
  split
  · exact h
  · dsimp only
    rw [lookup_insert_eq]
    split
    · rfl
    · exact h

/-- No app is forgotten. -/
theorem Change.apps (h : Change s s') {app : String} (happ : (s.apps.lookup app).isSome = true) :
    (s'.apps.lookup app).isSome = true := by
  cases h with
  | same happs _ => rwa [happs]
  | online _ _ => exact apps_onOnline _ _ _ _ (by rwa [apps_addClient])
  | offline _ => exact apps_onOnline _ _ _ _ (by rwa [apps_addClient])

/-- The gates keep their apps. -/
theorem Change.hosted (h : Change s s') (hs : Hosted s) : Hosted s' := by
  have hcounter : ∀ (t : Server) (g : ℕ) (n : ℤ) (app : String)
      (f : Table ℕ OnlineUser → Table ℕ OnlineUser), t.apps = s.apps → t.gates = s.gates →
      Hosted ((t.addClient g n).onOnline app f) := by
    intro t g n app f hta htg g' conf hconf
    rw [gates_onOnline, lookup_addClient, htg] at hconf
    obtain ⟨conf', hconf', rfl⟩ := Option.map_eq_some_iff.1 hconf
    have happ : (if g' = g then { conf' with client := conf'.client + n } else conf').app
        = conf'.app := by split <;> rfl
    refine apps_onOnline _ _ _ _ ?_
    rw [apps_addClient, hta, happ]
    exact hs g' conf' hconf'
  cases h with
  | same happs hgates =>
      intro g conf hconf
      rw [hgates] at hconf
      rw [happs]
      exact hs g conf hconf
  | online _ _ => exact hcounter _ _ _ _ _ rfl rfl
  | offline _ => exact hcounter _ _ _ _ _ rfl rfl

/-- **The assignment of a gate** is a change when there is no record of the user. -/
theorem change_loginAssign {app platform : String} {id : ℕ}
    (happ : (s.apps.lookup app).isSome = true)
    (hrec : (assignGate s app platform).2 ≠ none → s.record app id = none) :
    Change s (loginAssign s app platform id).server ∧
      ∀ pc ∈ (loginAssign s app platform id).pcs, pc.app? = none := by
  obtain ⟨counter, heq | ⟨g, -, heq⟩⟩ := assignGate_cases s app platform
  · simp only [loginAssign, heq]
    exact ⟨.same rfl rfl, by simp [Out.pcs]⟩
  · have hnone := hrec (by rw [heq]; simp)
    simp only [loginAssign, heq]
    exact ⟨.online happ hnone, by simp [Out.pcs, Pc.app?]⟩

/-- **The first segment of a request.** -/
theorem change_direct (hs : Hosted s) (r : Req) :
    Change s (direct s r).server ∧
      ∀ pc ∈ (direct s r).pcs, ∀ app, pc.app? = some app → (s.apps.lookup app).isSome = true := by
  cases r with
  | login app platform version =>
      have hwait : ∀ a, s.apps.lookup app = some a →
          ∀ pc ∈ (Out.wait s (.handshake app platform)).pcs, ∀ app', pc.app? = some app' →
            (s.apps.lookup app').isSome = true := by
        intro a ha pc hm app' happ'
        obtain rfl : pc = .handshake app platform := by simpa [Out.pcs] using hm
        obtain rfl : app = app' := Option.some_inj.1 happ'
        rw [ha]
        rfl
      dsimp only [direct]
      unfold login
      split
      · exact ⟨.same rfl rfl, by simp [Out.pcs]⟩
      · split
        · exact ⟨.same rfl rfl, by simp [Out.pcs]⟩
        · rename_i a ha
          split
          · exact ⟨.same rfl rfl, by simp [Out.pcs]⟩
          · split
            · exact ⟨.same rfl rfl, hwait a ha⟩
            · split
              · exact ⟨.same rfl rfl, by simp [Out.pcs]⟩
              · exact ⟨.same rfl rfl, hwait a ha⟩
  | logout source id =>
      dsimp only [direct]
      unfold logout
      split
      · exact ⟨.same rfl rfl, by simp [Out.pcs]⟩
      · split
        · exact ⟨.same rfl rfl, by simp [Out.pcs]⟩
        · rename_i u hu
          exact ⟨.offline hu, by simp [Out.pcs]⟩
  | restore source id =>
      dsimp only [direct]
      unfold restore
      split
      · exact ⟨.same rfl rfl, by simp [Out.pcs]⟩
      · rename_i conf hconf
        split
        · exact ⟨.same rfl rfl, by simp [Out.pcs]⟩
        · rename_i hrec
          have hchange : Change s ((Server.addClient { s with gateCounter := s.gateCounter }
              source 1).onOnline conf.app fun t => t.insert id ⟨id, source⟩) :=
            .online (hs source conf hconf) hrec
          exact ⟨hchange, by simp [Out.pcs]⟩

/-- **The segments after a yield.** -/
theorem change_resume {pc : Pc} (inp : Inp)
    (happ : ∀ app, pc.app? = some app → (s.apps.lookup app).isSome = true)
    (hkick : ∀ app platform id, pc = .tryKick app platform id → inp.raised = false →
      (assignGate s app platform).2 ≠ none → s.record app id = none) :
    Change s (resume s inp pc).server ∧
      ∀ pc' ∈ (resume s inp pc).pcs, ∀ app, pc'.app? = some app →
        (s.apps.lookup app).isSome = true := by
  -- After the assignment the login names its app no longer.
  have hassign : ∀ app platform id, (s.apps.lookup app).isSome = true →
      ((assignGate s app platform).2 ≠ none → s.record app id = none) →
      Change s (loginAssign s app platform id).server ∧
        ∀ pc' ∈ (loginAssign s app platform id).pcs, ∀ app', pc'.app? = some app' →
          (s.apps.lookup app').isSome = true := by
    intro app platform id h hrec
    obtain ⟨hchange, hpcs⟩ := change_loginAssign h hrec
    exact ⟨hchange, fun pc' hm app' happ' => by rw [hpcs pc' hm] at happ'; cases happ'⟩
  cases pc with
  | handshake app platform =>
      unfold resume
      dsimp only
      split
      · exact ⟨.same rfl rfl, by simp [Out.pcs]⟩
      · exact ⟨.same rfl rfl, by simp [Out.pcs]⟩
      · split
        · exact ⟨.same rfl rfl, by simp [Out.pcs]⟩
        · split
          · refine ⟨.same rfl rfl, ?_⟩
            intro pc' hm app' happ'
            obtain rfl : pc' = .tryKick app platform _ := by simpa [Out.pcs] using hm
            obtain rfl : app = app' := Option.some_inj.1 happ'
            exact happ app rfl
          · rename_i hrec
            exact hassign _ _ _ (happ app rfl) fun _ => hrec
  | tryKick app platform id =>
      unfold resume
      dsimp only
      split
      · exact ⟨.same rfl rfl, by simp [Out.pcs]⟩
      · rename_i hraised
        exact hassign _ _ _ (happ app rfl) (hkick app platform id rfl (by simpa using hraised))
  | gateLogin id gate => exact ⟨.same rfl rfl, by simp [resume, Out.pcs]⟩

end Changes

/-- The invariant: the accounting, and the apps that the gates and the logins name. -/
structure LoginInv (s : Server) (pcs : List Pc) : Prop where
  accounted : Accounted s
  hosted : Hosted s
  known : ∀ pc ∈ pcs, ∀ app, pc.app? = some app → (s.apps.lookup app).isSome = true

theorem LoginInv.change {s s' : Server} {pcs l rest : List Pc} (h : LoginInv s pcs)
    (hc : Change s s') (hrest : ∀ pc ∈ rest, pc ∈ pcs)
    (hl : ∀ pc ∈ l, ∀ app, pc.app? = some app → (s.apps.lookup app).isSome = true)
    {pcs' : List Pc} (hp : ∀ pc ∈ pcs', pc ∈ l ∨ pc ∈ rest) : LoginInv s' pcs' where
  accounted := hc.accounted h.accounted
  hosted := hc.hosted h.hosted
  known := by
    intro pc hm app happ
    rcases hp pc hm with hm | hm
    · exact hc.apps (hl pc hm app happ)
    · exact hc.apps (h.known pc (hrest pc hm) app happ)

/-- **One step keeps the accounting.** -/
theorem LoginInv.step {s s' : Pool Server Pc} {e : Event Req Inp}
    (h : LoginInv s.shared s.cos) (hc : kickedOut s e = true) (he : service.exec s e = some s') :
    LoginInv s'.shared s'.cos := by
  rcases Machine.exec_cases he with ⟨r, i, rfl, rfl⟩ | ⟨k, i, l, pc, r, out, rfl, hk, hl, ho, rfl⟩
  · obtain ⟨hchange, hpcs⟩ := change_direct h.hosted r
    exact h.change hchange (fun _ hm => hm) hpcs fun pc hm => (List.mem_append.1 hm).symm
  · have hmem : pc ∈ s.cos := by rw [hl]; simp
    have hkick : ∀ app platform id, pc = .tryKick app platform id → i.raised = false →
        (assignGate s.shared app platform).2 ≠ none → s.shared.record app id = none := by
      rintro app platform id rfl hraised hgate
      simpa [kickedOut, hk, hraised, hgate] using hc
    obtain ⟨hchange, hpcs⟩ := change_resume i (h.known pc hmem) hkick
    obtain rfl : out = ((resume s.shared i pc).server, (resume s.shared i pc).pcs) :=
      (Option.some_inj.1 ho).symm
    have hrest : ∀ pc' ∈ l ++ r, pc' ∈ s.cos := by
      intro pc' hm
      rw [hl]
      exact Machine.mem_of_mem_rest hm
    refine h.change hchange hrest hpcs fun pc' hm => ?_
    exact (Machine.rest_or_left hm).symm

theorem loginInv_registered {s : Server} (h : Registered s) : LoginInv s [] where
  accounted := by
    intro g conf hconf
    have hzero : onlineOn s g = 0 := by
      rw [onlineOn]
      refine List.sum_eq_zero fun n hn => ?_
      obtain ⟨a, ha, rfl⟩ := List.mem_map.1 hn
      rw [namedIn, h.online a ha]
      rfl
    rw [h.client g conf hconf, hzero]
    rfl
  hosted := h.hosted
  known := by simp

/-- **The counters count the records.**  In every run in which a login goes on after `try_kick` only
when the old record is gone, the counter of a gate is the number of records that name it, and
`assign_gate` hands out a gate only while fewer users than `maxclient` are online there. -/
theorem accounted_of_kickedOut {s₀ : Server} {s : Pool Server Pc} (h₀ : Registered s₀)
    (h : service.Reach (fun s e => kickedOut s e = true) ⟨s₀, []⟩ s) :
    (∀ g conf, s.shared.gates.lookup g = some conf →
      conf.client = onlineOn s.shared g ∧ 0 ≤ conf.client) ∧
    ∀ app platform g conf, (assignGate s.shared app platform).2 = some g →
      s.shared.gates.lookup g = some conf → (onlineOn s.shared g : ℤ) < conf.maxclient := by
  have hinv : LoginInv s.shared s.cos :=
    h.inv (P := fun s => LoginInv s.shared s.cos) (loginInv_registered h₀)
      fun _ _ _ hi hc he => hi.step hc he
  refine ⟨fun g conf hconf => ?_, ?_⟩
  · have heq := hinv.accounted g conf hconf
    exact ⟨heq, by rw [heq]; exact Int.natCast_nonneg _⟩
  · intro app platform g conf hg hconf
    obtain ⟨counter, heq | ⟨g', hfree, heq⟩⟩ := assignGate_cases s.shared app platform
    · rw [heq] at hg
      cases hg
    · rw [heq] at hg
      obtain rfl : g' = g := Option.some_inj.1 hg
      rw [Server.free, hconf] at hfree
      rw [← hinv.accounted g' conf hconf]
      exact of_decide_eq_true hfree

/-- One app with one gate. -/
def oneGate : Server where
  apps := (∅ : Table String App).insert "fish"
    { platforms := (∅ : Table String (List ℕ)).insert "ios" [7] }
  gates := (∅ : Table ℕ GateConf).insert 7 { app := "fish", maxclient := 2 }
  gateCounter := (∅ : Table String Counter).insert "fish.ios" { gates := [7] }

theorem lookup_oneGate {g : ℕ} {conf : GateConf} (h : oneGate.gates.lookup g = some conf) :
    conf = { app := "fish", maxclient := 2 } := by
  unfold oneGate at h
  dsimp only at h
  rw [lookup_insert_eq] at h
  split at h
  · exact (Option.some_inj.1 h).symm
  · cases h

theorem registered_oneGate : Registered oneGate where
  client := fun g conf h => by rw [lookup_oneGate h]
  online := by
    intro a ha
    obtain rfl : a = { platforms := (∅ : Table String (List ℕ)).insert "ios" [7] } := by
      simpa [oneGate, vals] using ha
    rfl
  hosted := by
    intro g conf h
    rw [lookup_oneGate h]
    rfl

/-- A login up to the call of the gate. -/
def loginOnce (id : ℕ) : List (Event Req Inp) :=
  [.call (.login "fish" "ios" none) {}, .resume 0 { auth := .user id false }]

/-- A login, a logout and another login. -/
theorem accounted_loginAgain :
    ∃ s, service.Reach (fun s e => kickedOut s e = true) ⟨oneGate, []⟩ s ∧
      onlineOn s.shared 7 = 1 ∧
      ∀ g conf, s.shared.gates.lookup g = some conf →
        conf.client = onlineOn s.shared g ∧ 0 ≤ conf.client := by
  obtain ⟨s, hs, hp⟩ := Machine.exists_reach
    (loginOnce 1 ++ [.resume 0 {}, .call (.logout 7 1) {}] ++ loginOnce 1)
    (C := fun s e => kickedOut s e = true) (i := ⟨oneGate, []⟩) (M := service)
    (p := fun s => decide (onlineOn s.shared 7 = 1)) (by decide +kernel)
  exact ⟨s, hs, of_decide_eq_true hp, (accounted_of_kickedOut registered_oneGate hs).1⟩

/-- **A second login before the sign-in leaks a slot**: the watchdog does not know the user, so
`try_kick` leaves the first record to be overwritten. -/
theorem login_twice_leaks_slot :
    ¬ ∀ (s₀ : Server) (s : Pool Server Pc), Registered s₀ →
      service.Reach (fun _ _ => True) ⟨s₀, []⟩ s →
        ∀ g conf, s.shared.gates.lookup g = some conf → conf.client = onlineOn s.shared g := by
  intro hall
  obtain ⟨s, hs, hp⟩ := Machine.exists_reach
    (loginOnce 1 ++ [.resume 0 {}] ++ loginOnce 1 ++ [.resume 0 {}])
    (C := fun _ _ => True) (i := ⟨oneGate, []⟩) (M := service)
    (p := fun s => (s.shared.gates.lookup 7).any fun conf =>
      decide (conf.client ≠ (onlineOn s.shared 7 : ℤ))) (by decide +kernel)
  obtain ⟨conf, hconf, hne⟩ := (Option.any_eq_true _ _).1 hp
  exact of_decide_eq_true hne (hall oneGate s registered_oneGate hs 7 conf hconf)

end Halieutics.Login
