/-
**The latest logins: `service/db/script/game.lua` and `service/db/gamedb.lua`.**

Every sign-in on a gate is entered in the sorted set `login:lastest`, with the time in seconds as
its score, and the set is to hold the 500 users who have logged in last.  When it has one entry too
many, the script removes the entry of the highest rank.  The highest rank is the latest login: a set
that is full turns away everybody who is not on it.

A login is entered well as long as the set has room or the user is on it already.  There is one more
case, that of a set whose entries are all of the second of the new login: then the entry that goes
may be that of somebody else, and it is as late as every other.

Main definitions:

* `Halieutics.LastestLogin.addLastestLogin`, `Halieutics.LastestLogin.getLastestLogin` — the two
  operations of `gamedb.lua`;
* `Halieutics.LastestLogin.lastLogin`, `Halieutics.LastestLogin.users` — what a sequence of logins
  says;
* `Halieutics.LastestLogin.Latest` — **the set has the latest logins**;
* `Halieutics.LastestLogin.Harmless` — the login is entered well.

Main results:

* `Halieutics.LastestLogin.scored_run` — every entry is the last login of its user;
* `Halieutics.LastestLogin.Latest.login`, `Halieutics.LastestLogin.harmless_of_latest` — **what a
  login needs**;
* `Halieutics.LastestLogin.latest_iff_harmless` — the set has the latest logins all the time exactly
  if every login is harmless;
* `Halieutics.LastestLogin.latest_of_few`, `Halieutics.LastestLogin.not_latest_of_full` — which
  holds for up to 500 users, and **fails when one more logs in later**.
-/

import Halieutics.Redis
import Halieutics.SortedSet

set_option relaxedAutoImplicit false
set_option autoImplicit false

namespace Halieutics.LastestLogin

open Redis

/-! ### The operations -/

/-- **The script `add_lastest_login`**, on the sorted set `login:lastest`. -/
def addScript (z : SortedSet String) (userid : String) (time max : ℕ) : SortedSet String :=
  let z := z.zadd time userid
  if max < z.zcard then z.zremrangebyrank (-1) (-1) else z

def limit : ℕ := 500

/-- **`db.add_lastest_login`** at the time `tm`. -/
def addLastestLogin (z : SortedSet String) (userid tm : ℕ) : SortedSet String :=
  addScript z userid.repr tm limit

/-- **`db.get_lastest_login`**. -/
def getLastestLogin (z : SortedSet String) (max : Option ℕ) : List ℕ :=
  let stop : ℤ := match max with
    | none => -1
    | some max => max - 1
  (z.zrevrange 0 stop).filterMap String.toNat?

/-! ### The logins -/

/-- A call of `add_lastest_login`. -/
structure Login where
  userid : ℕ
  time : ℕ
  deriving DecidableEq

/-- The set after these logins. -/
def run (cs : List Login) : SortedSet String :=
  cs.foldl (fun z c => addLastestLogin z c.userid c.time) {}

/-- Who has logged in. -/
def users (cs : List Login) : Finset ℕ := (cs.map Login.userid).toFinset

/-- When a user has logged in last. -/
def lastLogin (cs : List Login) (u : ℕ) : ℕ :=
  ((cs.reverse.find? fun c => c.userid = u).map Login.time).getD 0

/-- **The set has the latest logins**: at most 500 of them, those of all users if there are no more,
and otherwise those of the users who have logged in last; they are answered from the latest on, and
the user who has just logged in is among them. -/
structure Latest (cs : List Login) (z : SortedSet String) : Prop where
  bounded : z.zcard ≤ limit
  nodup : (getLastestLogin z none).Nodup
  count : (getLastestLogin z none).length = min limit (users cs).card
  listed : ∀ u ∈ getLastestLogin z none, u ∈ users cs
  latest : ∀ u ∈ getLastestLogin z none, ∀ v ∈ users cs, v ∉ getLastestLogin z none →
    lastLogin cs v ≤ lastLogin cs u
  ordered : (getLastestLogin z none).Pairwise fun u v => lastLogin cs v ≤ lastLogin cs u
  just : ∀ c ∈ cs.getLast?, c.userid ∈ getLastestLogin z none

/-- **The login is entered well**: the user is on the set or the set has room, or else every entry
is of the same second and one of them is that of a user whose number stands behind the user's. -/
def Harmless (z : SortedSet String) (c : Login) : Prop :=
  c.userid.repr ∈ z.members ∨ z.zcard < limit ∨
    (∀ e ∈ z.entries, (ofLex e).1 = c.time) ∧ ∃ m ∈ z.members, c.userid.repr < m

section Logins

variable {cs : List Login} {c : Login} {u v : ℕ}

@[simp] theorem run_append : run (cs ++ [c]) = addLastestLogin (run cs) c.userid c.time := by
  rw [run, List.foldl_append]
  rfl

@[simp] theorem users_append : users (cs ++ [c]) = insert c.userid (users cs) := by
  ext u
  simp only [users, List.map_append, List.mem_toFinset, List.mem_append, List.map_cons,
    List.map_nil,
    List.mem_singleton, Finset.mem_insert]
  exact or_comm

theorem lastLogin_append :
    lastLogin (cs ++ [c]) u = if c.userid = u then c.time else lastLogin cs u := by
  rw [lastLogin, List.reverse_append, List.reverse_singleton, List.singleton_append,
    List.find?_cons]
  by_cases h : c.userid = u
  · simp [h]
  · simp [h, lastLogin]

theorem lastLogin_le {t : ℕ} (h : ∀ c ∈ cs, c.time ≤ t) (u : ℕ) : lastLogin cs u ≤ t := by
  rw [lastLogin]
  cases hf : cs.reverse.find? fun c => c.userid = u with
  | none => exact Nat.zero_le t
  | some c => exact h c (List.mem_reverse.1 (List.mem_of_find?_eq_some hf))

end Logins

/-! ### Every entry is the last login of its user -/

/-- The entry of a user. -/
def entry (cs : List Login) (u : ℕ) : ℕ ×ₗ String := toLex (lastLogin cs u, u.repr)

theorem entry_append {cs : List Login} {c : Login} {u : ℕ} (h : c.userid ≠ u) :
    entry (cs ++ [c]) u = entry cs u := by
  rw [entry, entry, lastLogin_append, if_neg h]

/-- **Every entry is the last login of its user.** -/
def Scored (cs : List Login) (z : SortedSet String) : Prop :=
  ∀ e ∈ z.entries, ∃ u ∈ users cs, e = entry cs u

section Scored

variable {cs : List Login} {z : SortedSet String} {c : Login} {u v : ℕ}

theorem Scored.zadd (h : Scored cs z) : Scored (cs ++ [c]) (z.zadd c.time c.userid.repr) := by
  intro e he
  rcases SortedSet.mem_zadd.1 he with rfl | ⟨he, hne⟩
  · refine ⟨c.userid, by simp, ?_⟩
    rw [entry, lastLogin_append, if_pos rfl]
  · obtain ⟨u, hu, rfl⟩ := h e he
    have hcu : c.userid ≠ u := fun heq => hne (by rw [heq]; rfl)
    exact ⟨u, by simp [hu], (entry_append hcu).symm⟩

theorem Scored.login (h : Scored cs z) :
    Scored (cs ++ [c]) (addLastestLogin z c.userid c.time) := by
  rw [addLastestLogin, addScript]
  split
  · exact fun e he => h.zadd e (SortedSet.mem_removeLast.1 he).1
  · exact h.zadd

theorem scored_run (cs : List Login) : Scored cs (run cs) := by
  induction cs using List.reverseRecOn with
  | nil => exact fun e he => absurd he List.not_mem_nil
  | append_singleton cs c ih =>
      rw [run_append]
      exact ih.login

/-- The users on the set. -/
theorem Scored.entries_eq (h : Scored cs z) :
    z.entries = (getLastestLogin z none).reverse.map (entry cs) := by
  have hall : ∀ es : List (ℕ ×ₗ String), (∀ e ∈ es, ∃ u ∈ users cs, e = entry cs u) →
      es = ((es.map fun e => (ofLex e).2).filterMap String.toNat?).map (entry cs) := by
    intro es hes
    induction es with
    | nil => rfl
    | cons e es ih =>
        obtain ⟨u, -, rfl⟩ := hes e List.mem_cons_self
        have hu : (ofLex (entry cs u)).2 = u.repr := rfl
        rw [List.map_cons, hu, List.filterMap_cons_some (Nat.toNat?_repr u), List.map_cons,
          ← ih fun e he => hes e (List.mem_cons_of_mem _ he)]
  rw [getLastestLogin, z.zrevrange_all, List.filterMap_reverse, List.reverse_reverse]
  exact hall z.entries h

theorem Scored.mem_iff (h : Scored cs z) :
    u ∈ getLastestLogin z none ↔ entry cs u ∈ z.entries := by
  rw [h.entries_eq, List.mem_map]
  constructor
  · exact fun hu => ⟨u, List.mem_reverse.2 hu, rfl⟩
  · rintro ⟨v, hv, he⟩
    have hvu : v.repr = u.repr := congrArg (fun e => (ofLex e).2) he
    rw [Nat.repr_injective hvu] at hv
    exact List.mem_reverse.1 hv

theorem Scored.mem_members_iff (h : Scored cs z) :
    u.repr ∈ z.members ↔ u ∈ getLastestLogin z none := by
  rw [h.mem_iff, SortedSet.members, List.mem_map]
  constructor
  · rintro ⟨e, he, heu⟩
    obtain ⟨v, -, rfl⟩ := h e he
    rwa [← Nat.repr_injective heu]
  · exact fun hu => ⟨_, hu, rfl⟩

theorem Scored.zcard_eq (h : Scored cs z) : z.zcard = (getLastestLogin z none).length := by
  rw [SortedSet.zcard, h.entries_eq, List.length_map, List.length_reverse]

theorem Scored.nodup (h : Scored cs z) : (getLastestLogin z none).Nodup := by
  have hsorted := z.sorted.imp fun {a b} => ne_of_lt (a := a) (b := b)
  rw [h.entries_eq] at hsorted
  exact List.nodup_reverse.1 (List.Nodup.of_map (entry cs) hsorted)

theorem Scored.ordered (h : Scored cs z) :
    (getLastestLogin z none).Pairwise fun u v => lastLogin cs v ≤ lastLogin cs u := by
  have hsorted := z.sorted
  rw [h.entries_eq, List.pairwise_map, List.pairwise_reverse] at hsorted
  refine hsorted.imp fun {u v} hlt => ?_
  rcases Prod.Lex.lt_iff.1 hlt with hlt | hlt
  · exact hlt.le
  · exact hlt.1.le

theorem Scored.mem_users (h : Scored cs z) (hu : u ∈ getLastestLogin z none) : u ∈ users cs := by
  obtain ⟨v, hv, he⟩ := h _ (h.mem_iff.1 hu)
  have huv : u.repr = v.repr := congrArg (fun e => (ofLex e).2) he
  rwa [Nat.repr_injective huv]

end Scored

/-! ### What a login needs -/

section Login

variable {cs : List Login} {z : SortedSet String} {c : Login} {u v : ℕ}

/-- The set after a login that finds the user on it or finds room. -/
theorem login_of_room (h : c.userid.repr ∈ z.members ∨ z.zcard < limit) (hz : z.zcard ≤ limit) :
    addLastestLogin z c.userid c.time = z.zadd c.time c.userid.repr := by
  rw [addLastestLogin, addScript, if_neg]
  rw [SortedSet.zcard_zadd, not_lt]
  split
  · exact hz
  · rename_i hm
    exact h.resolve_left hm

/-- **The set after a login that finds neither**: the highest entry goes. -/
theorem login_of_full (hm : c.userid.repr ∉ z.members) (hz : z.zcard = limit) :
    addLastestLogin z c.userid c.time =
      (z.zadd c.time c.userid.repr).zremrangebyrank (-1) (-1) := by
  rw [addLastestLogin, addScript, if_pos]
  rw [SortedSet.zcard_zadd, if_neg hm, hz]
  exact Nat.lt_succ_self limit

/-- Everybody is on a set that has room. -/
theorem Latest.all_listed (h : Latest cs z) (hz : z.zcard < limit) (hs : Scored cs z)
    (hu : u ∈ users cs) : u ∈ getLastestLogin z none := by
  have hcard : (getLastestLogin z none).length = (users cs).card := by
    have hcount := h.count
    rw [hs.zcard_eq] at hz
    omega
  have hsub : (getLastestLogin z none).toFinset ⊆ users cs := fun v hv =>
    h.listed v (List.mem_toFinset.1 hv)
  have heq := Finset.eq_of_subset_of_card_le hsub (by
    rw [List.toFinset_card_of_nodup h.nodup, hcard])
  rw [← List.mem_toFinset, heq]
  exact hu

/-- What is on the set, and how many, says it all. -/
theorem Scored.latest (hs : Scored cs z) (hcard : z.zcard = min limit (users cs).card)
    (hlatest : ∀ u ∈ getLastestLogin z none, ∀ v ∈ users cs, v ∉ getLastestLogin z none →
      lastLogin cs v ≤ lastLogin cs u)
    (hjust : ∀ c ∈ cs.getLast?, c.userid ∈ getLastestLogin z none) : Latest cs z where
  bounded := hcard.le.trans (min_le_left _ _)
  nodup := hs.nodup
  count := hs.zcard_eq.symm.trans hcard
  listed _ hu := hs.mem_users hu
  latest := hlatest
  ordered := hs.ordered
  just := hjust

/-- Who is on the set after a login that takes nobody off it. -/
theorem mem_login_of_room (hs : Scored cs z) (hz : z.zcard ≤ limit)
    (h : c.userid.repr ∈ z.members ∨ z.zcard < limit) :
    u ∈ getLastestLogin (addLastestLogin z c.userid c.time) none ↔
      u = c.userid ∨ u ∈ getLastestLogin z none := by
  have hs' := hs.zadd (c := c)
  rw [login_of_room h hz, hs'.mem_iff, SortedSet.mem_zadd, entry, lastLogin_append]
  constructor
  · rintro (he | ⟨he, hne⟩)
    · exact Or.inl (Nat.repr_injective (congrArg (fun e => (ofLex e).2) he))
    · have hcu : c.userid ≠ u := fun heq => hne (by rw [heq]; rfl)
      rw [if_neg hcu] at he
      exact Or.inr (hs.mem_iff.2 he)
  · rintro (rfl | hu)
    · exact Or.inl (by rw [if_pos rfl])
    · by_cases hcu : c.userid = u
      · exact Or.inl (by rw [if_pos hcu, hcu])
      · refine Or.inr ⟨?_, fun heq => hcu (Nat.repr_injective heq.symm)⟩
        rw [if_neg hcu]
        exact hs.mem_iff.1 hu

/-- A login of a user who is on the set, or of a new one when there is room. -/
theorem Latest.login_of_room (h : Latest cs z) (hs : Scored cs z) (ht : ∀ d ∈ cs, d.time ≤ c.time)
    (hroom : c.userid.repr ∈ z.members ∨ z.zcard < limit) :
    Latest (cs ++ [c]) (addLastestLogin z c.userid c.time) := by
  have hmem : ∀ u, u ∈ getLastestLogin (addLastestLogin z c.userid c.time) none ↔
      u = c.userid ∨ u ∈ getLastestLogin z none := fun u => mem_login_of_room hs h.bounded hroom
  refine hs.login.latest ?_ (fun u hu v hv hnot => ?_) fun d hd => ?_
  · have hcount := hs.zcard_eq.trans h.count
    rw [LastestLogin.login_of_room hroom h.bounded, SortedSet.zcard_zadd, users_append]
    by_cases hm : c.userid.repr ∈ z.members
    · rw [if_pos hm, Finset.insert_eq_of_mem (hs.mem_users (hs.mem_members_iff.1 hm))]
      exact hcount
    · have hlt := hroom.resolve_left hm
      have hnew : c.userid ∉ users cs := fun hu =>
        hm (hs.mem_members_iff.2 (h.all_listed hlt hs hu))
      rw [if_neg hm, Finset.card_insert_of_notMem hnew]
      omega
  · have hcv : c.userid ≠ v := fun heq => hnot ((hmem v).2 (Or.inl heq.symm))
    have hv' : v ∈ users cs := by
      rw [users_append, Finset.mem_insert] at hv
      exact hv.resolve_left hcv.symm
    rw [lastLogin_append, if_neg hcv, lastLogin_append]
    split
    · exact lastLogin_le ht v
    · rename_i hcu
      have hu' := ((hmem u).1 hu).resolve_left fun heq => hcu heq.symm
      exact h.latest u hu' v hv' fun hl => hnot ((hmem v).2 (Or.inr hl))
  · rw [List.getLast?_concat, Option.mem_some_iff] at hd
    exact (hmem _).2 (Or.inl (by rw [hd]))

/-- A login when every entry is of its second, and one stands behind it. -/
theorem Latest.login_of_tied (h : Latest cs z) (hs : Scored cs z) (ht : ∀ d ∈ cs, d.time ≤ c.time)
    (hm : c.userid.repr ∉ z.members) (hz : z.zcard = limit)
    (hsame : ∀ e ∈ z.entries, (ofLex e).1 = c.time) (hbehind : ∃ m ∈ z.members, c.userid.repr < m) :
    Latest (cs ++ [c]) (addLastestLogin z c.userid c.time) := by
  have hs' := hs.login (c := c)
  have hset := login_of_full hm hz
  refine hs'.latest ?_ (fun u hu v _ _ => ?_) fun d hd => ?_
  · have hle : limit ≤ (users cs).card := by
      have hcount := hs.zcard_eq.symm.trans hz
      have hmin := h.count
      omega
    rw [hset, SortedSet.zcard_removeLast, SortedSet.zcard_zadd, if_neg hm, hz, users_append]
    exact (min_eq_left (hle.trans (Finset.card_le_card (Finset.subset_insert _ _)))).symm
  · -- the last login of everybody on the set is of this second
    have hu' := hs'.mem_iff.1 hu
    rw [hset, SortedSet.mem_removeLast, SortedSet.mem_zadd] at hu'
    have hlast : lastLogin (cs ++ [c]) u = c.time := by
      rcases hu'.1 with he | ⟨he, -⟩
      · exact congrArg (fun e => (ofLex e).1) he
      · exact hsame _ he
    rw [hlast]
    refine lastLogin_le (fun d hd => ?_) v
    rcases List.mem_append.1 hd with hd | hd
    · exact ht d hd
    · rw [List.mem_singleton.1 hd]
  · rw [List.getLast?_concat, Option.mem_some_iff] at hd
    subst hd
    obtain ⟨m, hmem, hlt⟩ := hbehind
    obtain ⟨e, he, rfl⟩ := List.mem_map.1 hmem
    rw [hs'.mem_iff, hset, SortedSet.mem_removeLast, entry, lastLogin_append, if_pos rfl]
    exact ⟨SortedSet.mem_zadd.2 (Or.inl rfl), e, SortedSet.mem_zadd.2 (Or.inr ⟨he, hlt.ne'⟩),
      Prod.Lex.lt_iff.2 (Or.inr ⟨(hsame e he).symm, hlt⟩)⟩

/-- **What is enough for a login.** -/
theorem Latest.login (h : Latest cs z) (hs : Scored cs z) (ht : ∀ d ∈ cs, d.time ≤ c.time)
    (hc : Harmless z c) : Latest (cs ++ [c]) (addLastestLogin z c.userid c.time) := by
  by_cases hroom : c.userid.repr ∈ z.members ∨ z.zcard < limit
  · exact h.login_of_room hs ht hroom
  · rw [not_or, not_lt] at hroom
    rcases hc with hm | hlt | ⟨hsame, hbehind⟩
    · exact absurd hm hroom.1
    · exact absurd hlt (not_lt.2 hroom.2)
    · exact h.login_of_tied hs ht hroom.1 (le_antisymm h.bounded hroom.2) hsame hbehind

/-- **What a login needs**: if the set has the latest logins afterwards, it was entered well. -/
theorem harmless_of_latest (h : Latest cs z) (hs : Scored cs z) (ht : ∀ d ∈ cs, d.time ≤ c.time)
    (h' : Latest (cs ++ [c]) (addLastestLogin z c.userid c.time)) : Harmless z c := by
  by_cases hm : c.userid.repr ∈ z.members
  · exact Or.inl hm
  by_cases hlt : z.zcard < limit
  · exact Or.inr (Or.inl hlt)
  have hset := login_of_full hm (le_antisymm h.bounded (not_lt.1 hlt))
  have hs' := hs.login (c := c)
  -- the entry that has gone
  have hin : toLex (c.time, c.userid.repr) ∈ (z.zadd c.time c.userid.repr).entries :=
    SortedSet.mem_zadd.2 (Or.inl rfl)
  have hne := List.ne_nil_of_mem hin
  have hgone := List.getLast_mem hne
  have hlast := fun e he => SortedSet.lt_getLast hne (e := e) he
  generalize (z.zadd c.time c.userid.repr).entries.getLast hne = g at hgone hlast
  have hjust := hs'.mem_iff.1 (h'.just c (by simp))
  rw [hset, SortedSet.mem_removeLast, entry, lastLogin_append, if_pos rfl] at hjust
  obtain ⟨-, e, he, hbehind⟩ := hjust
  have hlt : toLex (c.time, c.userid.repr) < g := by
    by_cases heg : e = g
    · exact heg ▸ hbehind
    · exact hbehind.trans (hlast e he heg)
  obtain ⟨hg, hgc⟩ := (SortedSet.mem_zadd.1 hgone).resolve_left hlt.ne'
  obtain ⟨v, hv, rfl⟩ := hs g hg
  have hvt := lastLogin_le ht v
  -- it is of the second of the login
  obtain ⟨htime, hname⟩ := (Prod.Lex.lt_iff.1 hlt).resolve_left (not_lt.2 hvt)
  refine Or.inr (Or.inr ⟨fun e he => ?_, v.repr, List.mem_map.2 ⟨_, hg, rfl⟩, hname⟩)
  by_cases heg : e = entry cs v
  · rw [heg]
    exact htime.symm
  · -- and no entry that has stayed is earlier
    obtain ⟨w, -, rfl⟩ := hs e he
    have hother : ∀ u, entry cs u ∈ z.entries → c.userid ≠ u := fun u hu heq =>
      hm (heq ▸ List.mem_map.2 ⟨_, hu, rfl⟩)
    have hw : w ∈ getLastestLogin (addLastestLogin z c.userid c.time) none := by
      rw [hs'.mem_iff, entry_append (hother w he), hset, SortedSet.mem_removeLast]
      have hin : entry cs w ∈ (z.zadd c.time c.userid.repr).entries :=
        SortedSet.mem_zadd.2 (Or.inr ⟨he, fun heq => hother w he (Nat.repr_injective heq).symm⟩)
      exact ⟨hin, _, hgone, hlast _ hin heg⟩
    have hv' : v ∉ getLastestLogin (addLastestLogin z c.userid c.time) none := by
      rw [hs'.mem_iff, entry_append (hother v hg), hset, SortedSet.mem_removeLast]
      rintro ⟨-, e', he', hlt'⟩
      exact lt_asymm hlt' (hlast e' he' hlt'.ne')
    have hle := h'.latest w hw v (by simp [hv]) hv'
    rw [lastLogin_append, if_neg (hother v hg), lastLogin_append, if_neg (hother w he)] at hle
    exact le_antisymm (lastLogin_le ht w) (htime.le.trans hle)

end Login

/-! ### Sequences of logins -/

theorem latest_empty : Latest [] {} where
  bounded := Nat.zero_le _
  nodup := List.nodup_nil
  count := rfl
  listed _ h := absurd h List.not_mem_nil
  latest _ h := absurd h List.not_mem_nil
  ordered := List.Pairwise.nil
  just _ h := by simp at h

/-- The logins in front of the last one are not later. -/
theorem time_le_of_earlier {cs p : List Login} {c : Login}
    (h : (cs.map Login.time).Pairwise (· ≤ ·))
    (hp : p ++ [c] <+: cs) : ∀ d ∈ p, d.time ≤ c.time := by
  intro d hd
  have hsub := h.sublist (hp.sublist.map Login.time)
  rw [List.map_append, List.pairwise_append] at hsub
  exact hsub.2.2 _ (List.mem_map_of_mem hd) _ List.mem_cons_self

/-- Harmless logins keep the latest ones. -/
theorem latest_of_harmless {cs : List Login} (h : (cs.map Login.time).Pairwise (· ≤ ·))
    (hall : ∀ p c, p ++ [c] <+: cs → Harmless (run p) c) {p : List Login} (hp : p <+: cs) :
    Latest p (run p) := by
  induction p using List.reverseRecOn with
  | nil => exact latest_empty
  | append_singleton p c ih =>
      rw [run_append]
      exact (ih ((List.prefix_append p [c]).trans hp)).login (scored_run p)
        (time_le_of_earlier h hp)
        (hall p c hp)

/-- **The set has the latest logins all the time exactly if every login is harmless.** -/
theorem latest_iff_harmless (cs : List Login) (h : (cs.map Login.time).Pairwise (· ≤ ·)) :
    (∀ p, p <+: cs → Latest p (run p)) ↔ ∀ p c, p ++ [c] <+: cs → Harmless (run p) c := by
  constructor
  · intro hall p c hp
    refine harmless_of_latest (hall p ((List.prefix_append p [c]).trans hp)) (scored_run p)
      (time_le_of_earlier h hp) ?_
    rw [← run_append]
    exact hall _ hp
  · exact fun hall p hp => latest_of_harmless h hall hp

/-- Three logins, two of them of one user. -/
theorem latest_iff_harmless_again :
    (∀ p, p <+: [(⟨1, 10⟩ : Login), ⟨2, 11⟩, ⟨1, 11⟩] → Latest p (run p)) ↔
      ∀ p c, p ++ [c] <+: [(⟨1, 10⟩ : Login), ⟨2, 11⟩, ⟨1, 11⟩] → Harmless (run p) c :=
  latest_iff_harmless [⟨1, 10⟩, ⟨2, 11⟩, ⟨1, 11⟩] (by decide)

/-- **Up to 500 users there is room.** -/
theorem latest_of_few {cs : List Login} (h : (cs.map Login.time).Pairwise (· ≤ ·))
    (hfew : (users cs).card ≤ limit) {p : List Login} (hp : p <+: cs) : Latest p (run p) := by
  refine latest_of_harmless h (fun p c hp => ?_) hp
  have hs := scored_run p
  by_cases hm : c.userid.repr ∈ (run p).members
  · exact Or.inl hm
  · -- the user is not among those on the set
    refine Or.inr (Or.inl ?_)
    have hsub : insert c.userid (getLastestLogin (run p) none).toFinset ⊆ users cs := by
      intro u hu
      have hin : u ∈ users (p ++ [c]) := by
        rw [users_append]
        exact Finset.insert_subset_insert _
          (fun v hv => hs.mem_users (List.mem_toFinset.1 hv)) hu
      exact List.mem_toFinset.2 ((hp.sublist.map _).subset (List.mem_toFinset.1 hin))
    have hcard := Finset.card_le_card hsub
    rw [Finset.card_insert_of_notMem fun hu =>
      hm (hs.mem_members_iff.2 (List.mem_toFinset.1 hu)), List.toFinset_card_of_nodup hs.nodup,
      ← hs.zcard_eq] at hcard
    exact Nat.lt_of_lt_of_le (Nat.lt_of_succ_le hcard) hfew

/-- **A new user who logs in later than all the others is lost** when the set is full. -/
theorem not_latest_of_full {cs : List Login} {z : SortedSet String} {c : Login} (h : Latest cs z)
    (hs : Scored cs z) (ht : ∀ d ∈ cs, d.time < c.time) (hu : c.userid ∉ users cs)
    (hfull : limit ≤ (users cs).card) :
    ¬ Latest (cs ++ [c]) (addLastestLogin z c.userid c.time) := by
  intro h'
  have hcard : z.zcard = limit := by
    rw [hs.zcard_eq, h.count, min_eq_left hfull]
  rcases harmless_of_latest h hs (fun d hd => (ht d hd).le) h' with hm | hlt | ⟨hsame, m, hm, -⟩
  · exact hu (hs.mem_users (hs.mem_members_iff.1 hm))
  · exact absurd hlt (by rw [hcard]; exact lt_irrefl _)
  · obtain ⟨e, he, -⟩ := List.mem_map.1 hm
    obtain ⟨v, hv, rfl⟩ := hs e he
    obtain ⟨d, hd, -⟩ := List.mem_map.1 (List.mem_toFinset.1 hv)
    have hpos : lastLogin cs v ≤ c.time - 1 :=
      lastLogin_le (fun d hd => Nat.le_pred_of_lt (ht d hd)) v
    have heq : lastLogin cs v = c.time := hsame _ he
    have hlt := ht d hd
    omega

/-- So many users log in one after the other. -/
def queue (n : ℕ) : List Login := (List.range n).map fun i => ⟨i, i⟩

theorem queue_succ (n : ℕ) : queue (n + 1) = queue n ++ [⟨n, n⟩] := by
  rw [queue, List.range_succ, List.map_append]
  rfl

theorem map_time_queue (n : ℕ) : (queue n).map Login.time = List.range n := by
  rw [queue, List.map_map]
  exact List.map_id _

theorem users_queue (n : ℕ) : users (queue n) = Finset.range n := by
  rw [users, queue, List.map_map]
  exact (congrArg List.toFinset (List.map_id _)).trans (List.toFinset_range n)

theorem time_lt_of_mem_queue {n : ℕ} {d : Login} (h : d ∈ queue n) : d.time < n := by
  have hmem := List.mem_map_of_mem (f := Login.time) h
  rw [map_time_queue] at hmem
  exact List.mem_range.1 hmem

/-- **The 501st user is not on the set.** -/
theorem lastest_lost : ((queue (limit + 1)).map Login.time).Pairwise (· ≤ ·) ∧
    ¬ Latest (queue (limit + 1)) (run (queue (limit + 1))) := by
  have htimes : ∀ n, ((queue n).map Login.time).Pairwise (· ≤ ·) := fun n => by
    rw [map_time_queue]
    exact List.pairwise_le_range
  have hcard : (users (queue limit)).card = limit := by rw [users_queue, Finset.card_range]
  refine ⟨htimes _, ?_⟩
  rw [queue_succ, run_append]
  refine not_latest_of_full (latest_of_few (htimes limit) hcard.le (List.prefix_refl _))
    (scored_run _) (fun d hd => time_lt_of_mem_queue hd) ?_ hcard.ge
  rw [users_queue]
  exact Finset.notMem_range_self

end Halieutics.LastestLogin
