/-
**Clients that ask for notices.**

A client starts with `pull(0)` and from then on asks with the `lastid` of the last reply.  It should
get each message once, and miss none that is in the queue when it asks.  But the `bid` of a message
is only a number of the service that has published it, and the message that a client has last been
given may leave the queue before older ones do.  If another message carries the same `bid`, the walk
of `M.pull` stops above messages that the client does not have; if the message is gone, the walk
goes on into messages that it has.

Main definitions:

* `World`, `World.step` — the services of the app, the channel between them, and the clients;
* `Delivered` — **no message is delivered twice, and none is skipped**;
* `FindsPlace` — the condition: a client that asks finds its place in the queue.

Main results:

* `sound_step` — what the steps that meet the condition keep;
* `delivered_iff` — **a run delivers the notices exactly if every request in it finds its place**;
* `bids_collide` — two services publish a message each with `bid` 1, and a client gets one of them;
  a removal of the newest message, and a client gets the older one again.
-/

import Halieutics.Broadcast

set_option relaxedAutoImplicit false
set_option autoImplicit false

namespace Halieutics.Broadcast

/-! ### The services, the channel and the clients -/

/-- A client: the `lastid` of its last reply and the coroutine that its request waits in.  What no
service has: `got`, the messages it was given; `missed`, those in the queue at one of its requests
that it neither had nor got by it; and `mark`, the newest message of its last reply. -/
structure Client where
  last : ℕ := 0
  pending : Option ℕ := none
  got : List ℕ := []
  missed : List ℕ := []
  mark : ℕ := 0

/-- The services `A` of an app and the clients `C` of their agents. -/
structure World (A C : Type) where
  sent : ℕ := 0
  wire : A → List Packet := fun _ => []
  mods : A → State := fun _ => {}
  clients : C → Client := fun _ => {}

/-- An event: a service starts to use the module or ends; it publishes something; the oldest packet
for a service comes in; a client asks; or a request that has waited is answered. -/
inductive Ev (A C : Type) where
  | init (a : A) (s : Option Conf)
  | close (a : A)
  | publish (a : A) (p : Pub)
  | arrive (a : A)
  | pull (c : C)
  | wake (c : C)

/-- The request of the client is answered. -/
def Client.receive (k : Client) (r : Reply) : Client :=
  { k with
    last := r.lastid
    pending := none
    got := r.items.map (·.no) ++ k.got
    mark := (r.items.head?.map (·.no)).getD k.mark }

/-- The client asks while the queue is `q`, and gets `items` at once. -/
def Client.ask (k : Client) (q items : List Msg) : Client :=
  { k with missed := (q.filter fun m => m.no ∉ k.got ∧ m ∉ items).map (·.no) ++ k.missed }

variable {A C : Type} [DecidableEq A] [DecidableEq C]

/-- The channel passes a packet on to those who have subscribed. -/
def World.send (w : World A C) (p : Packet) : World A C :=
  { w with
    sent := w.sent + 1
    wire := fun a => if (w.mods a).subscribed then w.wire a ++ [p] else w.wire a }

def World.setMod (w : World A C) (a : A) (m : State) : World A C :=
  { w with mods := Function.update w.mods a m }

def World.setClient (w : World A C) (c : C) (k : Client) : World A C :=
  { w with clients := Function.update w.clients c k }

/-- **One event**; the client `c` is a client of the service `home c`. -/
def World.step (home : C → A) (w : World A C) : Ev A C → Option (World A C)
  | .init a s => if (w.mods a).channel then none else some (w.setMod a ((w.mods a).init s))
  | .close a => some (w.setMod a (w.mods a).close)
  | .publish a p =>
      let (m, packet) := (w.mods a).publish (w.sent + 1) p
      match packet with
      | none => some (w.setMod a m)
      | some packet => some ((w.setMod a m).send packet)
  | .arrive a =>
      match w.wire a with
      | [] => none
      | p :: ps =>
          some { w.setMod a ((w.mods a).receive p) with wire := Function.update w.wire a ps }
  | .pull c =>
      let k := w.clients c
      let q := (w.mods (home c)).msgQueue
      if k.pending.isSome then none
      else
        match (w.mods (home c)).pull k.last with
        | (_, .nil) => some w
        | (_, .reply r) => some (w.setClient c ((k.ask q r.items).receive r))
        | (m, .wait co) =>
            some ((w.setMod (home c) m).setClient c { k.ask q [] with pending := some co })
  | .wake c =>
      (w.clients c).pending.bind fun co =>
        match (w.mods (home c)).waitResponse co with
        | some (.message r) => some (w.setClient c ((w.clients c).receive r))
        | _ => none

/-- A sequence of events. -/
def World.run (home : C → A) (w : World A C) : List (Ev A C) → Option (World A C)
  | [] => some w
  | e :: es => (w.step home e).bind fun w => w.run home es

/-- Before the first service has started. -/
def start : World A C := {}

/-- **No message was delivered to the client twice, and none was skipped.** -/
structure Delivered (k : Client) : Prop where
  once : k.got.Nodup
  all : k.missed = []

/-- **The condition** on an event: a client that asks finds its place in the queue. -/
def FindsPlace (home : C → A) (w : World A C) : Ev A C → Prop
  | .pull c =>
      (w.clients c).pending = none → (w.mods (home c)).channel = true →
        Finds (w.mods (home c)).msgQueue (w.clients c).last (w.clients c).mark
  | _ => True

/-- Every event of a run meets the condition. -/
def AllFind (home : C → A) (w : World A C) : List (Ev A C) → Prop
  | [] => True
  | e :: es => FindsPlace home w e ∧ ∀ v, w.step home e = some v → AllFind home v es

/-! ### What the runs keep -/

/-- The messages among some packets, newest first. -/
def messages (ps : List Packet) : List Msg :=
  (ps.filterMap fun | .msg m => some m | .rem _ => none).reverse

/-- The messages that a service has or will get. -/
def World.stream (w : World A C) (a : A) : List Msg :=
  messages (w.wire a) ++ (w.mods a).msgQueue

/-- The reply that the request of a client will be given. -/
def due (m : State) (k : Client) : List Msg :=
  match k.pending.bind m.waitResponse with
  | some (.message r) => r.items
  | _ => []

/-- The newest message that the client was or will be given. -/
def top (m : State) (k : Client) : ℕ := ((due m k).head?.map (·.no)).getD k.mark

/-- Messages in the order of their numbers, newest first, when `n` messages were sent. -/
structure Ordered (n : ℕ) (q : List Msg) : Prop where
  order : Newest q
  numbers : ∀ msg ∈ q, msg.no ≤ n

/-- **What a client has** when `n` messages were sent, `ps` being the packets that its service will
get: it has everything in the queue up to its newest message, once, and nothing above. -/
structure Holds (n : ℕ) (ps : List Packet) (m : State) (k : Client) : Prop where
  once : ((due m k).map (·.no) ++ k.got).Nodup
  all : k.missed = []
  upto : ∀ n ∈ (due m k).map (·.no) ++ k.got, n ≤ top m k
  has : ∀ msg ∈ m.msgQueue, msg.no ≤ top m k → msg.no ∈ (due m k).map (·.no) ++ k.got
  ahead : ∀ msg ∈ messages ps, top m k < msg.no
  sent : top m k ≤ n
  /-- A request that waits has everything that is there. -/
  waits : ∀ co, k.pending = some co → m.waitResponse co = some .wait →
    ∀ msg ∈ m.msgQueue, msg.no ≤ top m k
  /-- A request that waits does so in a coroutine of its own. -/
  own : ∀ co, k.pending = some co → co < m.coroutines

/-- **The invariant**: the messages come in the order of their numbers, and every client has what it
should. -/
structure Sound (home : C → A) (w : World A C) : Prop where
  order : ∀ a, Ordered w.sent (w.stream a)
  holds : ∀ c, Holds w.sent (w.wire (home c)) (w.mods (home c)) (w.clients c)

/-! ### Messages on the way -/

@[simp] theorem messages_nil : messages [] = [] := rfl

theorem messages_cons_msg (m : Msg) (ps : List Packet) :
    messages (.msg m :: ps) = messages ps ++ [m] := by
  simp [messages]

theorem messages_cons_rem (id : ℕ) (ps : List Packet) :
    messages (.rem id :: ps) = messages ps := by
  simp [messages]

theorem messages_concat_msg (m : Msg) (ps : List Packet) :
    messages (ps ++ [.msg m]) = m :: messages ps := by
  simp [messages]

theorem messages_concat_rem (id : ℕ) (ps : List Packet) :
    messages (ps ++ [.rem id]) = messages ps := by
  simp [messages]

theorem messages_tail_subset (p : Packet) (ps : List Packet) : messages ps ⊆ messages
    (p :: ps) := by
  cases p with
  | msg m =>
      rw [messages_cons_msg]
      exact List.subset_append_left _ _
  | rem id =>
      rw [messages_cons_rem]
      exact List.Subset.refl _

/-- What comes in leaves nothing new behind: the messages of the service stay in order. -/
theorem stream_receive (m : State) (p : Packet) (ps : List Packet) :
    (messages ps ++ (m.receive p).msgQueue).Sublist (messages (p :: ps) ++ m.msgQueue) := by
  unfold State.receive
  split
  · cases p with
    | msg msg =>
        rw [messages_cons_msg, List.append_assoc]
        exact (trim_sublist (msg :: m.msgQueue)).append_left _
    | rem id =>
        rw [messages_cons_rem]
        exact (sublist_dispatchRem m id).append_left _
  · refine List.Sublist.append_right ?_ _
    cases p with
    | msg msg =>
        rw [messages_cons_msg]
        exact List.sublist_append_left _ _
    | rem id => rw [messages_cons_rem]

/-- A packet comes in: the queue has nothing but what it had and, if the service is a subscriber and
the packet is a message, that message. -/
theorem mem_receive {m : State} {p : Packet} {msg : Msg} (h : msg ∈ (m.receive p).msgQueue) :
    msg ∈ m.msgQueue ∨ m.subscribed = true ∧ p = .msg msg := by
  unfold State.receive at h
  split at h
  · rename_i hsub
    cases p with
    | msg msg' =>
        rcases List.mem_cons.1 ((trim_sublist _).subset h) with rfl | h
        · exact Or.inr ⟨hsub, rfl⟩
        · exact Or.inl h
    | rem id => exact Or.inl ((sublist_dispatchRem m id).subset h)
  · exact Or.inl h

@[simp] theorem coroutines_receive (m : State) (p : Packet) :
    (m.receive p).coroutines = m.coroutines := by
  unfold State.receive
  split
  · cases p with
    | msg msg => rfl
    | rem id => rfl
  · rfl

/-- Requests are answered by messages only. -/
theorem waitResponse_receive (m : State) (p : Packet) (co : ℕ) :
    (m.receive p).waitResponse co = m.waitResponse co ∨
      ∃ msg, p = .msg msg ∧ m.waitResponse co = some .wait ∧
        (m.receive p).waitResponse co = some (.message ⟨msg.bid, [msg]⟩) := by
  unfold State.receive
  split
  · cases p with
    | msg msg =>
        by_cases hw : m.waitResponse co = some .wait
        · refine Or.inr ⟨msg, rfl, hw, ?_⟩
          change (if m.waitResponse co = some .wait then _ else _) = _
          rw [if_pos hw]
        · refine Or.inl ?_
          change (if m.waitResponse co = some .wait then _ else _) = _
          rw [if_neg hw]
    | rem id => exact Or.inl rfl
  · exact Or.inl rfl

/-- What `publish` leaves as it is. -/
structure State.SameQueue (m m' : State) : Prop where
  msgQueue : m'.msgQueue = m.msgQueue
  waitResponse : m'.waitResponse = m.waitResponse
  coroutines : m'.coroutines = m.coroutines

theorem sameQueue_publish (m : State) (no : ℕ) (p : Pub) : m.SameQueue (m.publish no p).1 := by
  cases p with
  | notice text =>
      change m.SameQueue (m.notice text).1
      unfold State.notice
      split
      · exact ⟨rfl, rfl, rfl⟩
      · exact ⟨rfl, rfl, rfl⟩
  | noticeitem item now =>
      change m.SameQueue (m.noticeitem item now).1
      unfold State.noticeitem
      split
      · split
        · exact ⟨rfl, rfl, rfl⟩
        · exact ⟨rfl, rfl, rfl⟩
      · exact ⟨rfl, rfl, rfl⟩
  | smallhorn text =>
      change m.SameQueue (m.smallhorn text).1
      unfold State.smallhorn
      split
      · exact ⟨rfl, rfl, rfl⟩
      · exact ⟨rfl, rfl, rfl⟩
  | remove id => exact ⟨rfl, rfl, rfl⟩

/-- A publication puts a message with its number on the channel, or a removal. -/
theorem packet_publish {m : State} {no : ℕ} {p : Pub} {packet : Packet}
    (h : (m.publish no p).2 = some packet) :
    (∃ msg, packet = .msg msg ∧ msg.no = no) ∨ ∃ id, packet = .rem id := by
  cases p with
  | notice text =>
      obtain ⟨b, -, rfl⟩ := Option.map_eq_some_iff.1 h
      exact Or.inl ⟨_, rfl, rfl⟩
  | noticeitem item now =>
      obtain ⟨b, -, rfl⟩ := Option.map_eq_some_iff.1 h
      exact Or.inl ⟨_, rfl, rfl⟩
  | smallhorn text =>
      obtain ⟨b, -, rfl⟩ := Option.map_eq_some_iff.1 h
      exact Or.inl ⟨_, rfl, rfl⟩
  | remove id =>
      unfold State.publish at h
      dsimp only at h
      split at h
      · exact Or.inr ⟨id, (Option.some_inj.1 h).symm⟩
      · cases h

/-! ### What a client keeps -/

section Clients

variable {n : ℕ} {ps : List Packet} {m m' : State} {k : Client}

theorem due_congr (h : m'.waitResponse = m.waitResponse) : due m' k = due m k := by
  unfold due
  rw [h]

theorem top_congr (h : due m' k = due m k) : top m' k = top m k := by
  unfold top
  rw [h]

theorem due_of_idle (h : k.pending = none) : due m k = [] := by
  unfold due
  rw [h]
  rfl

theorem due_of_wait {co : ℕ} (hk : k.pending = some co) (h : m.waitResponse co = some .wait) :
    due m k = [] := by
  unfold due
  rw [hk, Option.bind_some, h]

theorem due_of_message {co : ℕ} {r : Reply} (hk : k.pending = some co)
    (h : m.waitResponse co = some (.message r)) : due m k = r.items := by
  unfold due
  rw [hk, Option.bind_some, h]

theorem top_of_due_nil (h : due m k = []) : top m k = k.mark := by
  unfold top
  rw [h]
  rfl

/-- The module has the same queue and the same requests, and nothing new is on the way that is not
above all that the client has. -/
theorem Holds.same {n' : ℕ} {ps' : List Packet} (h : Holds n ps m k) (hm : m.SameQueue m')
    (hn : n ≤ n') (hps : ∀ msg ∈ messages ps', msg ∈ messages ps ∨ n < msg.no) :
    Holds n' ps' m' k := by
  have hdue : due m' k = due m k := due_congr hm.waitResponse
  have htop : top m' k = top m k := top_congr hdue
  constructor
  · rw [hdue]
    exact h.once
  · exact h.all
  · rw [hdue, htop]
    exact h.upto
  · rw [hm.msgQueue, hdue, htop]
    exact h.has
  · rw [htop]
    intro msg hmsg
    exact (hps msg hmsg).elim (h.ahead msg) (Nat.lt_of_le_of_lt h.sent)
  · rw [htop]
    exact le_trans h.sent hn
  · rw [hm.msgQueue, hm.waitResponse, htop]
    exact h.waits
  · rw [hm.coroutines]
    exact h.own

/-- The oldest packet comes in. -/
theorem Holds.receive {p : Packet} (h : Holds n (p :: ps) m k)
    (hn : Ordered n (messages (p :: ps) ++ m.msgQueue)) : Holds n ps (m.receive p) k := by
  have hahead : ∀ msg ∈ messages ps, top m k < msg.no := fun msg hmsg =>
    h.ahead msg (messages_tail_subset p ps hmsg)
  have hnew : ∀ msg, p = .msg msg → top m k < msg.no := by
    rintro msg rfl
    refine h.ahead msg ?_
    rw [messages_cons_msg]
    exact List.mem_append_right _ List.mem_cons_self
  by_cases hans : due (m.receive p) k = due m k
  · -- the request of the client, if there is one, stays as it is
    have htop : top (m.receive p) k = top m k := top_congr hans
    constructor
    · rw [hans]
      exact h.once
    · exact h.all
    · rw [hans, htop]
      exact h.upto
    · rw [hans, htop]
      intro msg hmsg hle
      rcases mem_receive hmsg with hmsg | ⟨-, rfl⟩
      · exact h.has msg hmsg hle
      · exact absurd (hnew msg rfl) (Nat.not_lt_of_le hle)
    · rw [htop]
      exact hahead
    · rw [htop]
      exact h.sent
    · intro co hco hwait msg hmsg
      rw [htop]
      rcases waitResponse_receive m p co with heq | ⟨_, _, _, heq⟩
      · rcases mem_receive hmsg with hmsg | ⟨hsub, rfl⟩
        · exact h.waits co hco (heq.symm.trans hwait) msg hmsg
        · -- a message answers a request that waits
          have hw := heq.symm.trans hwait
          have hd : (m.receive (.msg msg)).waitResponse co = some (.message ⟨msg.bid, [msg]⟩) := by
            unfold State.receive
            rw [if_pos hsub]
            change (if m.waitResponse co = some .wait then _ else _) = _
            rw [if_pos hw]
          exact absurd (hwait.symm.trans hd) (by simp)
      · exact absurd (hwait.symm.trans heq) (by simp)
    · rw [coroutines_receive]
      exact h.own
  · -- the message answers the request of the client
    obtain ⟨co, hco⟩ : ∃ co, k.pending = some co := by
      refine Option.ne_none_iff_exists'.1 fun hnone => hans ?_
      rw [due_of_idle hnone, due_of_idle hnone]
    obtain ⟨msg, rfl, hw, hr⟩ : ∃ msg, p = .msg msg ∧ m.waitResponse co = some .wait ∧
        (m.receive p).waitResponse co = some (.message ⟨msg.bid, [msg]⟩) := by
      refine (waitResponse_receive m p co).resolve_left fun heq => hans ?_
      unfold due
      rw [hco, Option.bind_some, Option.bind_some, heq]
    have hd : due m k = [] := due_of_wait hco hw
    have hd' : due (m.receive (.msg msg)) k = [msg] := due_of_message hco hr
    have ht' : top (m.receive (.msg msg)) k = msg.no := by
      unfold top
      rw [hd']
      rfl
    have hlt : top m k < msg.no := hnew msg rfl
    have hle : ∀ n ∈ k.got, n ≤ top m k := by
      intro n hn
      refine h.upto n ?_
      rw [hd]
      exact hn
    constructor
    · rw [hd', List.map_singleton, List.singleton_append, List.nodup_cons]
      refine ⟨fun hmem => ?_, ?_⟩
      · exact absurd hlt (Nat.not_lt_of_le (hle _ hmem))
      · have := h.once
        rwa [hd] at this
    · exact h.all
    · rw [hd', ht']
      intro n hn
      rcases List.mem_cons.1 hn with rfl | hn
      · exact Nat.le_refl _
      · exact Nat.le_of_lt (Nat.lt_of_le_of_lt (hle n hn) hlt)
    · rw [hd']
      intro msg' hmsg' _
      rcases mem_receive hmsg' with hmsg' | ⟨-, heq⟩
      · have := h.has msg' hmsg' (h.waits co hco hw msg' hmsg')
        rw [hd] at this
        exact List.mem_cons_of_mem _ this
      · obtain rfl := Packet.msg.inj heq
        exact List.mem_cons_self
    · rw [ht']
      intro msg' hmsg'
      -- the messages behind it are newer
      have horder := hn.order
      rw [messages_cons_msg, List.append_assoc] at horder
      exact (List.pairwise_append.1 horder).2.2 msg' hmsg' msg List.mem_cons_self
    · rw [ht']
      refine hn.numbers msg (List.mem_append_left _ ?_)
      rw [messages_cons_msg]
      exact List.mem_append_right _ List.mem_cons_self
    · intro co' hco' hwait
      obtain rfl := Option.some_inj.1 (hco.symm.trans hco')
      exact absurd (hwait.symm.trans hr) (by simp)
    · rw [coroutines_receive]
      exact h.own

/-- The request of another client waits. -/
theorem Holds.other (h : Holds n ps m k) :
    Holds n ps { m with
      waitResponse := Function.update m.waitResponse m.coroutines (some .wait)
      coroutines := m.coroutines + 1 } k := by
  have hw : ∀ co, k.pending = some co →
      Function.update m.waitResponse m.coroutines (some .wait) co = m.waitResponse co := by
    intro co hco
    exact Function.update_of_ne (Nat.ne_of_lt (h.own co hco)) _ _
  have hdue : due { m with
      waitResponse := Function.update m.waitResponse m.coroutines (some .wait)
      coroutines := m.coroutines + 1 } k = due m k := by
    cases hco : k.pending with
    | none => rw [due_of_idle hco, due_of_idle hco]
    | some co =>
        unfold due
        rw [hco, Option.bind_some, Option.bind_some]
        dsimp only
        rw [hw co hco]
  have htop := top_congr hdue
  constructor
  · rw [hdue]
    exact h.once
  · exact h.all
  · rw [hdue, htop]
    exact h.upto
  · rw [hdue, htop]
    exact h.has
  · rw [htop]
    exact h.ahead
  · rw [htop]
    exact h.sent
  · rw [htop]
    intro co hco hwait
    exact h.waits co hco ((hw co hco).symm.trans hwait)
  · intro co hco
    exact Nat.lt_succ_of_lt (h.own co hco)

/-- The request of the client is answered after it has waited. -/
theorem Holds.wake (h : Holds n ps m k) {co : ℕ} {r : Reply} (hk : k.pending = some co)
    (hr : m.waitResponse co = some (.message r)) : Holds n ps m (k.receive r) := by
  have hd : due m k = r.items := due_of_message hk hr
  have hd' : due m (k.receive r) = [] := due_of_idle rfl
  have ht : top m (k.receive r) = top m k := by
    unfold top
    rw [hd, hd']
    rfl
  constructor
  · rw [hd']
    have := h.once
    rwa [hd] at this
  · exact h.all
  · rw [hd', ht]
    have := h.upto
    rwa [hd] at this
  · rw [hd', ht]
    have := h.has
    rwa [hd] at this
  · rw [ht]
    exact h.ahead
  · rw [ht]
    exact h.sent
  · intro _ hnone
    cases hnone
  · intro _ hnone
    cases hnone

/-- What the client misses by a request that finds its place. -/
theorem missed_ask {q items : List Msg} (hall : k.missed = [])
    (h : ∀ msg ∈ q, msg.no ∈ k.got ∨ msg ∈ items) : (k.ask q items).missed = [] := by
  unfold Client.ask
  dsimp only
  rw [hall, List.append_nil, List.map_eq_nil_iff, List.filter_eq_nil_iff]
  intro msg hmsg hno
  have hno := of_decide_eq_true hno
  exact (h msg hmsg).elim hno.1 hno.2

theorem mem_got_or_newer (h : Holds n ps m k) (hk : k.pending = none) {msg : Msg}
    (hmsg : msg ∈ m.msgQueue) : msg.no ∈ k.got ∨ k.mark < msg.no := by
  have hd : due m k = [] := due_of_idle hk
  by_cases hle : msg.no ≤ k.mark
  · have := h.has msg hmsg (by rw [top_of_due_nil hd]; exact hle)
    rw [hd] at this
    exact Or.inl this
  · exact Or.inr (Nat.lt_of_not_le hle)

theorem got_le_mark (h : Holds n ps m k) (hk : k.pending = none) {i : ℕ} (hi : i ∈ k.got) :
    i ≤ k.mark := by
  have hd : due m k = [] := due_of_idle hk
  have := h.upto i (by rw [hd]; exact hi)
  rwa [top_of_due_nil hd] at this

/-- A client that asks and finds its place, with something above it. -/
theorem Holds.reply (h : Holds n ps m k) (hk : k.pending = none)
    (hn : Ordered n (messages ps ++ m.msgQueue)) (hf : Finds m.msgQueue k.last k.mark) {msg : Msg}
    {q : List Msg} (hfresh : fresh k.last m.msgQueue = msg :: q) :
    Holds n ps m ((k.ask m.msgQueue (msg :: q)).receive ⟨msg.bid, msg :: q⟩) := by
  obtain ⟨-, hq, hover⟩ := List.pairwise_append.1 hn.order
  have hmem := (mem_fresh_iff hq k.last k.mark).1 hf
  rw [hfresh] at hmem
  have hsub : (msg :: q).Sublist m.msgQueue := hfresh ▸ fresh_sublist k.last m.msgQueue
  have hmsg : msg ∈ m.msgQueue := hsub.subset List.mem_cons_self
  have hgot : ∀ i ∈ k.got, i ≤ k.mark := fun i hi => got_le_mark h hk hi
  have hnew : ∀ m' ∈ msg :: q, k.mark < m'.no := fun m' hm' => (hmem m' (hsub.subset hm')).1 hm'
  have hmark : k.mark < msg.no := hnew msg List.mem_cons_self
  have hd' : due m ((k.ask m.msgQueue (msg :: q)).receive ⟨msg.bid, msg :: q⟩) = [] :=
    due_of_idle rfl
  have ht' : top m ((k.ask m.msgQueue (msg :: q)).receive ⟨msg.bid, msg :: q⟩) = msg.no := by
    rw [top_of_due_nil hd']
    rfl
  have hhas : (due m ((k.ask m.msgQueue (msg :: q)).receive ⟨msg.bid, msg :: q⟩)).map (·.no) ++
      ((k.ask m.msgQueue (msg :: q)).receive ⟨msg.bid, msg :: q⟩).got =
      (msg :: q).map (·.no) ++ k.got := by
    rw [hd']
    rfl
  have hsorted : ((msg :: q).map (·.no)).Pairwise (· > ·) :=
    List.pairwise_map.2 (hq.sublist hsub)
  constructor
  · rw [hhas]
    refine List.nodup_append.2 ⟨hsorted.imp fun h => Nat.ne_of_gt h, ?_, ?_⟩
    · have := h.once
      rwa [due_of_idle hk] at this
    · intro i hi i' hi' heq
      obtain ⟨m', hm', rfl⟩ := List.mem_map.1 hi
      have := hnew m' hm'
      have := hgot i' hi'
      omega
  · refine missed_ask h.all fun m' hm' => ?_
    exact (mem_got_or_newer h hk hm').imp id (hmem m' hm').2
  · rw [hhas, ht']
    intro i hi
    rcases List.mem_append.1 hi with hi | hi
    · rcases List.mem_cons.1 hi with rfl | hi
      · exact Nat.le_refl _
      · exact Nat.le_of_lt ((List.pairwise_cons.1 hsorted).1 i hi)
    · exact Nat.le_of_lt (Nat.lt_of_le_of_lt (hgot i hi) hmark)
  · rw [hhas]
    intro m' hm' _
    rcases mem_got_or_newer h hk hm' with hin | hlt
    · exact List.mem_append_right _ hin
    · exact List.mem_append_left _ (List.mem_map_of_mem ((hmem m' hm').2 hlt))
  · rw [ht']
    intro m' hm'
    exact hover m' hm' msg hmsg
  · rw [ht']
    exact hn.numbers msg (List.mem_append_right _ hmsg)
  · intro _ hnone
    cases hnone
  · intro _ hnone
    cases hnone

/-- A client that asks and finds its place at the top of the queue: it waits. -/
theorem Holds.wait (h : Holds n ps m k) (hk : k.pending = none) (hq : Newest m.msgQueue)
    (hf : Finds m.msgQueue k.last k.mark) (hfresh : fresh k.last m.msgQueue = []) :
    Holds n ps { m with
      waitResponse := Function.update m.waitResponse m.coroutines (some .wait)
      coroutines := m.coroutines + 1 }
      { k.ask m.msgQueue [] with pending := some m.coroutines } := by
  have hmem := (mem_fresh_iff hq k.last k.mark).1 hf
  rw [hfresh] at hmem
  have hold : ∀ msg ∈ m.msgQueue, msg.no ∈ k.got := by
    intro msg hmsg
    exact (mem_got_or_newer h hk hmsg).resolve_right fun hlt =>
      absurd ((hmem msg hmsg).2 hlt) List.not_mem_nil
  have hd : due m k = [] := due_of_idle hk
  have hd' : due { m with
      waitResponse := Function.update m.waitResponse m.coroutines (some .wait)
      coroutines := m.coroutines + 1 }
      { k.ask m.msgQueue [] with pending := some m.coroutines } = [] :=
    due_of_wait rfl (Function.update_self _ _ _)
  have ht : top m k = k.mark := top_of_due_nil hd
  have ht' := top_of_due_nil hd'
  constructor
  · rw [hd']
    have := h.once
    rwa [hd] at this
  · exact missed_ask h.all fun msg hmsg => Or.inl (hold msg hmsg)
  · rw [hd', ht']
    have := h.upto
    rwa [hd, ht] at this
  · rw [hd']
    intro msg hmsg _
    exact hold msg hmsg
  · rw [ht']
    have := h.ahead
    rwa [ht] at this
  · rw [ht']
    have := h.sent
    rwa [ht] at this
  · intro _ _ _ msg hmsg
    rw [ht']
    exact got_le_mark h hk (hold msg hmsg)
  · intro co hco
    obtain rfl := Option.some_inj.1 hco
    exact Nat.lt_succ_self _

end Clients

/-! ### The runs -/

section Steps

variable {home : C → A} {w v : World A C} {e : Ev A C} {es : List (Ev A C)}

omit [DecidableEq C] in
/-- A service does something that its clients do not see, and the channel takes nothing up. -/
theorem Sound.setMod (h : Sound home w) {a : A} {m : State} (hm : (w.mods a).SameQueue m) :
    Sound home (w.setMod a m) := by
  have hsame : ∀ b, (w.mods b).SameQueue ((w.setMod a m).mods b) := by
    intro b
    by_cases hb : b = a
    · subst hb
      change (w.mods b).SameQueue (Function.update w.mods b m b)
      rw [Function.update_self]
      exact hm
    · change (w.mods b).SameQueue (Function.update w.mods a m b)
      rw [Function.update_of_ne hb]
      exact ⟨rfl, rfl, rfl⟩
  constructor
  · intro b
    change Ordered w.sent (messages (w.wire b) ++ ((w.setMod a m).mods b).msgQueue)
    rw [(hsame b).msgQueue]
    exact h.order b
  · intro c
    exact (h.holds c).same (hsame _) (Nat.le_refl _) fun _ hmsg => Or.inl hmsg

omit [DecidableEq A] in
/-- A client is given something: the services and the channel stay as they are. -/
theorem Sound.setClient (h : Sound home w) {c : C} {k : Client}
    (hk : Holds w.sent (w.wire (home c)) (w.mods (home c)) k) : Sound home (w.setClient c k) := by
  refine ⟨h.order, fun d => ?_⟩
  by_cases hd : d = c
  · subst hd
    change Holds _ _ _ (Function.update w.clients d k d)
    rw [Function.update_self]
    exact hk
  · change Holds _ _ _ (Function.update w.clients c k d)
    rw [Function.update_of_ne hd]
    exact h.holds d

omit [DecidableEq A] [DecidableEq C] in
/-- What a packet adds to the messages on the way to a service. -/
theorem messages_send {p : Packet}
    (hp : (∃ msg, p = .msg msg ∧ msg.no = w.sent + 1) ∨ ∃ id, p = .rem id) (a : A) :
    messages ((w.send p).wire a) = messages (w.wire a) ∨
      ∃ msg : Msg, msg.no = w.sent + 1 ∧
        messages ((w.send p).wire a) = msg :: messages (w.wire a) := by
  change messages (if (w.mods a).subscribed then w.wire a ++ [p] else w.wire a) = _ ∨
    ∃ msg : Msg, msg.no = w.sent + 1 ∧
      messages (if (w.mods a).subscribed then w.wire a ++ [p] else w.wire a) = _
  split
  · rcases hp with ⟨msg, rfl, hno⟩ | ⟨id, rfl⟩
    · exact Or.inr ⟨msg, hno, messages_concat_msg msg _⟩
    · exact Or.inl (messages_concat_rem id _)
  · exact Or.inl rfl

omit [DecidableEq A] [DecidableEq C] in
/-- The channel takes up a packet. -/
theorem Sound.send (h : Sound home w) {p : Packet}
    (hp : (∃ msg, p = .msg msg ∧ msg.no = w.sent + 1) ∨ ∃ id, p = .rem id) :
    Sound home (w.send p) := by
  constructor
  · intro a
    change Ordered (w.sent + 1) (messages ((w.send p).wire a) ++ (w.mods a).msgQueue)
    have hle : ∀ msg ∈ w.stream a, msg.no ≤ w.sent + 1 := fun msg hmsg =>
      Nat.le_succ_of_le ((h.order a).numbers msg hmsg)
    rcases messages_send hp a with heq | ⟨msg, hno, heq⟩
    · rw [heq]
      exact ⟨(h.order a).order, hle⟩
    · rw [heq, List.cons_append]
      constructor
      · refine List.pairwise_cons.2 ⟨fun msg' hmsg' => ?_, (h.order a).order⟩
        rw [hno]
        exact Nat.lt_succ_of_le ((h.order a).numbers msg' hmsg')
      · intro msg' hmsg'
        rcases List.mem_cons.1 hmsg' with rfl | hmsg'
        · exact Nat.le_of_eq hno
        · exact hle msg' hmsg'
  · intro c
    refine (h.holds c).same ⟨rfl, rfl, rfl⟩ (Nat.le_succ _) fun msg hmsg => ?_
    rcases messages_send hp (home c) with heq | ⟨msg', hno, heq⟩
    · exact Or.inl (heq ▸ hmsg)
    · rw [heq] at hmsg
      rcases List.mem_cons.1 hmsg with rfl | hmsg
      · rw [hno]
        exact Or.inr (Nat.lt_succ_self _)
      · exact Or.inl hmsg

omit [DecidableEq C] in
/-- The oldest packet comes in. -/
theorem Sound.arrive (h : Sound home w) {a : A} {p : Packet} {ps : List Packet}
    (hw : w.wire a = p :: ps) :
    Sound home { w.setMod a ((w.mods a).receive p) with wire := Function.update w.wire a ps } := by
  have hother : ∀ b, b ≠ a →
      Function.update w.mods a ((w.mods a).receive p) b = w.mods b ∧
        Function.update w.wire a ps b = w.wire b := fun b hb =>
    ⟨Function.update_of_ne hb _ _, Function.update_of_ne hb _ _⟩
  have hself := (h.order a)
  unfold World.stream at hself
  rw [hw] at hself
  constructor
  · intro b
    change Ordered w.sent (messages (Function.update w.wire a ps b) ++
      (Function.update w.mods a ((w.mods a).receive p) b).msgQueue)
    by_cases hb : b = a
    · subst hb
      rw [Function.update_self, Function.update_self]
      have hsub := stream_receive (w.mods b) p ps
      exact ⟨hself.order.sublist hsub, fun msg hmsg => hself.numbers msg (hsub.subset hmsg)⟩
    · rw [(hother b hb).1, (hother b hb).2]
      exact h.order b
  · intro c
    change Holds w.sent (Function.update w.wire a ps (home c))
      (Function.update w.mods a ((w.mods a).receive p) (home c)) (w.clients c)
    by_cases hb : home c = a
    · subst hb
      rw [Function.update_self, Function.update_self]
      have hc := h.holds c
      rw [hw] at hc
      exact hc.receive hself
    · rw [(hother _ hb).1, (hother _ hb).2]
      exact h.holds c

/-- A client waits. -/
theorem Sound.wait (h : Sound home w) {c : C} (hk : (w.clients c).pending = none)
    (hf : Finds (w.mods (home c)).msgQueue (w.clients c).last (w.clients c).mark)
    (hfresh : fresh (w.clients c).last (w.mods (home c)).msgQueue = []) :
    Sound home ((w.setMod (home c) { w.mods (home c) with
      waitResponse :=
        Function.update (w.mods (home c)).waitResponse (w.mods (home c)).coroutines (some .wait)
      coroutines := (w.mods (home c)).coroutines + 1 }).setClient c
        { (w.clients c).ask (w.mods (home c)).msgQueue [] with
          pending := some (w.mods (home c)).coroutines }) := by
  set m := w.mods (home c) with hm
  constructor
  · intro a
    change Ordered w.sent (messages (w.wire a) ++ (Function.update w.mods (home c) _ a).msgQueue)
    by_cases ha : a = home c
    · subst ha
      rw [Function.update_self]
      exact h.order (home c)
    · rw [Function.update_of_ne ha]
      exact h.order a
  · intro d
    change Holds w.sent (w.wire (home d)) (Function.update w.mods (home c) _ (home d))
      (Function.update w.clients c _ d)
    by_cases hd : d = c
    · subst hd
      rw [Function.update_self, Function.update_self]
      exact (h.holds d).wait hk (List.pairwise_append.1 (h.order (home d)).order).2.1 hf hfresh
    · rw [Function.update_of_ne hd]
      by_cases ha : home d = home c
      · have hother := h.holds d
        rw [ha] at hother ⊢
        rw [Function.update_self]
        exact hother.other
      · rw [Function.update_of_ne ha]
        exact h.holds d

/-- **What a request does**: nothing if the service has no channel; otherwise it waits, or it is
answered at once. -/
theorem pull_cases {c : C} (h : w.step home (.pull c) = some v) :
    (w.clients c).pending = none ∧
    (((w.mods (home c)).channel = false ∧ v = w) ∨
      ((w.mods (home c)).channel = true ∧
        fresh (w.clients c).last (w.mods (home c)).msgQueue = [] ∧
        v = (w.setMod (home c) { w.mods (home c) with
          waitResponse :=
            Function.update (w.mods (home c)).waitResponse (w.mods (home c)).coroutines (some .wait)
          coroutines := (w.mods (home c)).coroutines + 1 }).setClient c
            { (w.clients c).ask (w.mods (home c)).msgQueue [] with
              pending := some (w.mods (home c)).coroutines }) ∨
      ∃ msg q, (w.mods (home c)).channel = true ∧
        fresh (w.clients c).last (w.mods (home c)).msgQueue = msg :: q ∧
        v = w.setClient c (((w.clients c).ask (w.mods (home c)).msgQueue (msg :: q)).receive
          ⟨msg.bid, msg :: q⟩)) := by
  unfold World.step at h
  dsimp only at h
  split at h
  · cases h
  · rename_i hk
    refine ⟨by simpa using hk, ?_⟩
    unfold State.pull at h
    by_cases hch : (w.mods (home c)).channel = true
    · rw [if_pos hch] at h
      cases hfresh : fresh (w.clients c).last (w.mods (home c)).msgQueue with
      | nil =>
          rw [hfresh] at h
          exact Or.inr (Or.inl ⟨hch, rfl, (Option.some_inj.1 h).symm⟩)
      | cons msg q =>
          rw [hfresh] at h
          exact Or.inr (Or.inr ⟨msg, q, hch, rfl, (Option.some_inj.1 h).symm⟩)
    · rw [if_neg hch] at h
      exact Or.inl ⟨Bool.not_eq_true _ ▸ hch, (Option.some_inj.1 h).symm⟩

theorem wake_cases {c : C} (h : w.step home (.wake c) = some v) :
    ∃ co r, (w.clients c).pending = some co ∧
      (w.mods (home c)).waitResponse co = some (.message r) ∧
      v = w.setClient c ((w.clients c).receive r) := by
  obtain ⟨co, hco, h⟩ := Option.bind_eq_some_iff.1 h
  split at h
  · rename_i r hr
    exact ⟨co, r, hco, hr, (Option.some_inj.1 h).symm⟩
  · cases h

/-- **What the steps that meet the condition keep.** -/
theorem sound_step (h : w.step home e = some v) (hf : FindsPlace home w e) (hs : Sound home w) :
    Sound home v := by
  cases e with
  | init a s =>
      unfold World.step at h
      dsimp only at h
      split at h
      · cases h
      · obtain rfl := Option.some_inj.1 h
        exact hs.setMod ⟨rfl, rfl, rfl⟩
  | close a =>
      obtain rfl := Option.some_inj.1 h
      exact hs.setMod ⟨rfl, rfl, rfl⟩
  | publish a p =>
      have hmod := hs.setMod (sameQueue_publish (w.mods a) (w.sent + 1) p)
      unfold World.step at h
      dsimp only at h
      split at h
      · obtain rfl := Option.some_inj.1 h
        exact hmod
      · rename_i packet hp
        obtain rfl := Option.some_inj.1 h
        exact hmod.send (packet_publish hp)
  | arrive a =>
      unfold World.step at h
      dsimp only at h
      split at h
      · cases h
      · rename_i p ps hw
        obtain rfl := Option.some_inj.1 h
        exact hs.arrive hw
  | pull c =>
      obtain ⟨hk, hcases⟩ := pull_cases h
      rcases hcases with ⟨-, rfl⟩ | ⟨hch, hfresh, rfl⟩ | ⟨msg, q, hch, hfresh, rfl⟩
      · exact hs
      · exact hs.wait hk (hf hk hch) hfresh
      · exact hs.setClient ((hs.holds c).reply hk (hs.order (home c)) (hf hk hch) hfresh)
  | wake c =>
      obtain ⟨co, r, hco, hr, rfl⟩ := wake_cases h
      exact hs.setClient ((hs.holds c).wake hco hr)

/-- What a client was given and what it missed stays so. -/
def Before (k k' : Client) : Prop := k.got <:+ k'.got ∧ k.missed <:+ k'.missed

theorem Before.refl (k : Client) : Before k k := ⟨List.suffix_rfl, List.suffix_rfl⟩

theorem Before.delivered {k k' : Client} (h : Before k k') (hd : Delivered k') : Delivered k where
  once := hd.once.sublist h.1.sublist
  all := List.suffix_nil.1 (hd.all ▸ h.2)

omit [DecidableEq A] in
theorem before_setClient {d c : C} {k : Client} (h : Before (w.clients c) k) :
    Before (w.clients d) ((w.setClient c k).clients d) := by
  change Before _ (Function.update w.clients c k d)
  by_cases hd : d = c
  · subst hd
    rw [Function.update_self]
    exact h
  · rw [Function.update_of_ne hd]
    exact .refl _

theorem before_step (h : w.step home e = some v) (d : C) : Before (w.clients d) (v.clients d) := by
  cases e with
  | init a s =>
      unfold World.step at h
      dsimp only at h
      split at h
      · cases h
      · obtain rfl := Option.some_inj.1 h
        exact .refl _
  | close a =>
      obtain rfl := Option.some_inj.1 h
      exact .refl _
  | publish a p =>
      unfold World.step at h
      dsimp only at h
      split at h
      · obtain rfl := Option.some_inj.1 h
        exact .refl _
      · obtain rfl := Option.some_inj.1 h
        exact .refl _
  | arrive a =>
      unfold World.step at h
      dsimp only at h
      split at h
      · cases h
      · obtain rfl := Option.some_inj.1 h
        exact .refl _
  | pull c =>
      obtain ⟨-, hcases⟩ := pull_cases h
      rcases hcases with ⟨-, rfl⟩ | ⟨-, -, rfl⟩ | ⟨msg, q, -, -, rfl⟩
      · exact .refl _
      · exact before_setClient ⟨List.suffix_rfl, List.suffix_append _ _⟩
      · exact before_setClient ⟨List.suffix_append _ _, List.suffix_append _ _⟩
  | wake c =>
      obtain ⟨co, r, -, -, rfl⟩ := wake_cases h
      exact before_setClient ⟨List.suffix_append _ _, List.suffix_rfl⟩

theorem before_run (h : w.run home es = some v) (d : C) : Before (w.clients d) (v.clients d) := by
  induction es generalizing w with
  | nil =>
      obtain rfl := Option.some_inj.1 h
      exact .refl _
  | cons e es ih =>
      obtain ⟨u, he, hr⟩ := Option.bind_eq_some_iff.1 h
      have h₁ := before_step he d
      have h₂ := ih hr
      exact ⟨h₁.1.trans h₂.1, h₁.2.trans h₂.2⟩

/-- What a request misses that does not look at everything new. -/
theorem missed_of_notMem {k : Client} {q items : List Msg} {msg : Msg} (hq : msg ∈ q)
    (hgot : msg.no ∉ k.got) (hitems : msg ∉ items) : (k.ask q items).missed ≠ [] := by
  have hmem : msg.no ∈ (q.filter fun m => m.no ∉ k.got ∧ m ∉ items).map (·.no) :=
    List.mem_map_of_mem (List.mem_filter.2 ⟨hq, decide_eq_true ⟨hgot, hitems⟩⟩)
  intro hnil
  exact absurd ((List.append_eq_nil_iff.1 hnil).1 ▸ hmem) List.not_mem_nil

/-- **A request that does not find its place**: the client misses a message, or gets one again. -/
theorem not_delivered_step (h : w.step home e = some v) (hs : Sound home w)
    (hf : ¬ FindsPlace home w e) : ∃ c, ¬ Delivered (v.clients c) := by
  cases e with
  | pull c =>
      refine ⟨c, fun hd => hf fun hk hch => ?_⟩
      have hc := hs.holds c
      have hq : Newest (w.mods (home c)).msgQueue :=
        (List.pairwise_append.1 (hs.order (home c)).order).2.1
      obtain ⟨-, hcases⟩ := pull_cases h
      refine (mem_fresh_iff hq _ _).2 fun m hm => ?_
      rcases hcases with ⟨hno, -⟩ | ⟨-, hfresh, rfl⟩ | ⟨msg, q, -, hfresh, rfl⟩
      · exact absurd (hch.symm.trans hno) (by simp)
      · -- the client waits
        have hmissed := hd.all
        change (Function.update w.clients c _ c).missed = [] at hmissed
        rw [Function.update_self] at hmissed
        rw [hfresh]
        refine ⟨fun hmem => absurd hmem List.not_mem_nil, fun hlt => ?_⟩
        refine absurd hmissed (missed_of_notMem hm (fun hgot => ?_) List.not_mem_nil)
        exact absurd hlt (Nat.not_lt_of_le (got_le_mark hc hk hgot))
      · -- the client is answered
        have honce := hd.once
        have hmissed := hd.all
        change (Function.update w.clients c _ c).missed = [] at hmissed
        change (Function.update w.clients c _ c).got.Nodup at honce
        rw [Function.update_self] at hmissed honce
        rw [hfresh]
        constructor
        · intro hmem
          refine (mem_got_or_newer hc hk hm).resolve_left fun hgot => ?_
          exact (List.nodup_append.1 honce).2.2 _ (List.mem_map_of_mem hmem) _ hgot rfl
        · intro hlt
          by_contra hmem
          refine absurd hmissed (missed_of_notMem hm (fun hgot => ?_) hmem)
          exact absurd hlt (Nat.not_lt_of_le (got_le_mark hc hk hgot))
  | init a s => exact absurd trivial hf
  | close a => exact absurd trivial hf
  | publish a p => exact absurd trivial hf
  | arrive a => exact absurd trivial hf
  | wake c => exact absurd trivial hf

omit [DecidableEq A] [DecidableEq C] in
theorem sound_start : Sound home (start : World A C) where
  order := fun _ => ⟨List.Pairwise.nil, fun _ h => absurd h List.not_mem_nil⟩
  holds := fun _ => {
    once := List.nodup_nil
    all := rfl
    upto := fun _ h => absurd h List.not_mem_nil
    has := fun _ h => absurd h List.not_mem_nil
    ahead := fun _ h => absurd h List.not_mem_nil
    sent := Nat.le_refl _
    waits := fun _ _ _ _ h => absurd h List.not_mem_nil
    own := fun _ h => nomatch h }

theorem Holds.delivered {n : ℕ} {ps : List Packet} {m : State} {k : Client} (h : Holds n ps m k) :
    Delivered k :=
  ⟨(List.nodup_append.1 h.once).2.1, h.all⟩

theorem delivered_run (h : w.run home es = some v) (hs : Sound home w) :
    (∀ c, Delivered (v.clients c)) ↔ AllFind home w es := by
  induction es generalizing w with
  | nil =>
      obtain rfl := Option.some_inj.1 h
      exact ⟨fun _ => trivial, fun _ c => (hs.holds c).delivered⟩
  | cons e es ih =>
      obtain ⟨u, he, hr⟩ := Option.bind_eq_some_iff.1 h
      by_cases hf : FindsPlace home w e
      · refine (ih hr (sound_step he hf hs)).trans ⟨fun hall => ⟨hf, fun u' hu' => ?_⟩, fun hall =>
          hall.2 u he⟩
        obtain rfl := Option.some_inj.1 (he.symm.trans hu')
        exact hall
      · obtain ⟨c, hc⟩ := not_delivered_step he hs hf
        exact ⟨fun hd => absurd ((before_run hr c).delivered (hd c)) hc, fun hall =>
          absurd hall.1 hf⟩

/-- **A run delivers the notices exactly if every request in it finds its place.** -/
theorem delivered_iff (h : start.run home es = some v) :
    (∀ c, Delivered (v.clients c)) ↔ AllFind home start es :=
  delivered_run h sound_start

end Steps

/-! ### Two runs -/

/-- The service of the operators, service 0, and an agent, service 1, with one client. -/
abbrev Pair := World ℕ Unit

def style : Conf := { system := some ⟨"notice", 0xff0000⟩ }

/-- The two services start, and the agent publishes a notice of its configuration. -/
def bootNotice : List (Ev ℕ Unit) :=
  [.init 0 (some style), .init 1 (some style),
    .publish 1 (.noticeitem { id := some 1, content := "maintenance" } 0), .arrive 1, .pull ()]

theorem delivered_bootNotice : ∃ v : Pair, start.run (fun _ => 1) bootNotice = some v ∧
    ((∀ c, Delivered (v.clients c)) ↔ AllFind (fun _ => 1) (start : Pair) bootNotice) :=
  ⟨_, rfl, delivered_iff rfl⟩

/-- The operators add a notice: it carries the `bid` of the one that the client has, who does not
get it.  And an agent publishes two notices, the newer of which is removed: the client gets the
older one twice. -/
theorem bids_collide :
    (∃ v : Pair, start.run (fun _ => 1) (bootNotice ++
        [.publish 0 (.noticeitem { id := some 2, content := "event" } 0), .arrive 1, .pull ()])
        = some v ∧ (v.clients ()).missed = [2] ∧ ¬ Delivered (v.clients ())) ∧
    (∃ v : Pair, start.run (fun _ => 1) (bootNotice ++
        [.publish 1 (.noticeitem { id := some 2, content := "event" } 0), .arrive 1, .pull (),
          .publish 0 (.remove 2), .arrive 1, .pull ()])
        = some v ∧ (v.clients ()).got = [1, 2, 1] ∧ ¬ Delivered (v.clients ())) := by
  refine ⟨⟨_, rfl, by decide, fun h => ?_⟩, ⟨_, rfl, by decide, fun h => ?_⟩⟩
  · exact absurd h.all (by decide)
  · exact absurd h.once (by decide)

end Halieutics.Broadcast
