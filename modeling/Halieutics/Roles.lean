/-
**Fish and bullets: the storages of `lualib/game/fish/sdk.lua`.**

Fish and bullets are pooled objects: an object taken out of an active storage goes to a free list
and is handed out again under a new id.  The storages hold *references* to objects, so this module
keeps the objects in a heap and the references in the storages, as the source does.

Main definitions:

* `Halieutics.Roles` — the table made by `roles.create`;
* `Halieutics.Roles.activeFish`, `Halieutics.Roles.freeFish`, `Halieutics.Roles.activeBullet`,
  `Halieutics.Roles.freeBullet`, `Halieutics.Roles.freeBulletOfKind`, `Halieutics.Roles.update`,
  `Halieutics.Roles.freeAll`, `Halieutics.Roles.specialRecord`, `Halieutics.Roles.specialPop` — the
  methods of the same names.
-/

import Halieutics.LuaTable

set_option relaxedAutoImplicit false
set_option autoImplicit false

namespace Halieutics

open LuaTable

/-- A reference to a pooled object. -/
abbrev Ref := ℕ

/-- A fish object. -/
structure Fish where
  kind : ℤ := -1
  id : ℕ := 0
  buildTick : ℕ := 0

/-- A bullet object. -/
structure Bullet where
  kind : ℤ := -1
  id : ℕ := 0
  buildTick : ℕ := 0
  multiple : ℕ := 1

/-- `FISH_EXPIRE_TIME`. -/
def fishExpireTime : ℕ := 60

/-- `BULLET_EXPIRE_TIME`. -/
def bulletExpireTime : ℕ := 20

/-- `FISH_KIND_24`. -/
def isBombFish (kind : ℤ) : Bool := kind == 23

/-- `FISH_KIND_23`. -/
def isBankerFish (kind : ℤ) : Bool := kind == 22

/-- The roles of a game.  `fish` and `bullets` are the heaps of objects, of which the first
`fishN` and `bulletN` have been made. -/
structure Roles where
  fish : Ref → Fish := fun _ => {}
  fishN : ℕ := 0
  bullets : Ref → Bullet := fun _ => {}
  bulletN : ℕ := 0
  fishActive : Table ℕ Ref := ∅
  fishFree : List Ref := []
  bulletActive : Table ℤ (List Ref) := ∅
  bulletFree : List Ref := []
  fishIdGen : ℕ := 0
  bulletIdGen : ℕ := 0
  specialFish : Table ℕ ℕ := ∅

namespace Roles

/-- `roles:ActiveFish`: the most recently freed object, or a new one, under a new id. -/
def activeFish (r : Roles) (now : ℕ) : Roles × Ref :=
  let id := r.fishIdGen + 1
  match r.fishFree.getLast? with
  | some f =>
      ({ r with
          fishIdGen := id
          fishFree := r.fishFree.dropLast
          fish := Function.update r.fish f { r.fish f with kind := -1, id := id, buildTick := now }
          fishActive := r.fishActive.insert id f }, f)
  | none =>
      ({ r with
          fishIdGen := id
          fishN := r.fishN + 1
          fish := Function.update r.fish r.fishN { kind := -1, id := id, buildTick := now }
          fishActive := r.fishActive.insert id r.fishN }, r.fishN)

/-- The loop of `sdk.buildfishtrace`: one fish of every kind of the list. -/
def buildFish (r : Roles) (now : ℕ) : List ℤ → Roles
  | [] => r
  | k :: ks =>
      let p := r.activeFish now
      ({ p.1 with fish := Function.update p.1.fish p.2 { p.1.fish p.2 with kind := k } }).buildFish
        now ks

/-- `roles:FreeFish`. -/
def freeFish (r : Roles) (fid : ℕ) : Roles × Option Ref :=
  match r.fishActive.lookup fid with
  | none => (r, none)
  | some f =>
      ({ r with fishActive := r.fishActive.erase fid, fishFree := r.fishFree ++ [f] }, some f)

/-- `roles:GetFish`. -/
def getFish (r : Roles) (fid : ℕ) : Option Ref := r.fishActive.lookup fid

/-- `roles:ActiveBullet`. -/
def activeBullet (r : Roles) (seat : ℤ) (now : ℕ) : Roles × Ref :=
  let id := r.bulletIdGen + 1
  let mine := (r.bulletActive.lookup seat).getD []
  match r.bulletFree.getLast? with
  | some b =>
      ({ r with
          bulletIdGen := id
          bulletFree := r.bulletFree.dropLast
          bullets := Function.update r.bullets b
            { r.bullets b with kind := -1, id := id, buildTick := now }
          bulletActive := r.bulletActive.insert seat (mine ++ [b]) }, b)
  | none =>
      ({ r with
          bulletIdGen := id
          bulletN := r.bulletN + 1
          bullets := Function.update r.bullets r.bulletN { kind := -1, id := id, buildTick := now }
          bulletActive := r.bulletActive.insert seat (mine ++ [r.bulletN]) }, r.bulletN)

/-- The bullet `desk:userfire` activates, with the kind and the multiple it is given. -/
def loadBullet (r : Roles) (seat : ℤ) (now : ℕ) (kind : ℤ) (multiple : ℕ) : Roles × Bullet :=
  let p := r.activeBullet seat now
  let b := { p.1.bullets p.2 with kind := kind, multiple := multiple }
  ({ p.1 with bullets := Function.update p.1.bullets p.2 b }, b)

/-- Taking the first bullet of a seat that satisfies `p` out of the active storage: the common
body of `roles:FreeBullet` and `roles:FreeBulletOfKind`. -/
def takeBullet (r : Roles) (p : Bullet → Bool) (seat : ℤ) : Roles × Option Ref :=
  match r.bulletActive.lookup seat with
  | none => (r, none)
  | some mine =>
      match mine.find? fun b => p (r.bullets b) with
      | none => (r, none)
      | some b =>
          ({ r with
              bulletActive := r.bulletActive.insert seat (mine.eraseP fun b => p (r.bullets b))
              bulletFree := r.bulletFree ++ [b] }, some b)

/-- `roles:FreeBullet`. -/
def freeBullet (r : Roles) (bid : ℕ) (seat : ℤ) : Roles × Option Ref :=
  r.takeBullet (fun b => b.id == bid) seat

/-- `roles:FreeBulletOfKind`. -/
def freeBulletOfKind (r : Roles) (kind seat : ℤ) : Roles × Option Ref :=
  r.takeBullet (fun b => b.kind == kind) seat

/-- `roles:Update`: expired fish and bullets go to the free lists. -/
def update (r : Roles) (now : ℕ) : Roles :=
  let oldFish := fun f => decide ((r.fish f).buildTick + fishExpireTime ≤ now)
  let oldBullet := fun b => decide ((r.bullets b).buildTick + bulletExpireTime ≤ now)
  { r with
    fishActive := (r.fishActive.entries.filter fun e => oldFish e.2).foldl
      (fun t e => t.erase e.1) r.fishActive
    fishFree := r.fishFree ++ (vals r.fishActive).filter oldFish
    bulletActive := mapVals (fun mine => mine.filter fun b => !oldBullet b) r.bulletActive
    bulletFree := r.bulletFree ++ ((vals r.bulletActive).map (·.filter oldBullet)).flatten }

/-- `roles:FreeAll`. -/
def freeAll (r : Roles) : Roles :=
  { r with fishActive := ∅, fishFree := [], bulletActive := ∅, bulletFree := [] }

/-- `roles:SpecialRecord`. -/
def specialRecord (r : Roles) (id multiple : ℕ) : Roles :=
  { r with specialFish := r.specialFish.insert id multiple }

/-- `roles:SpecialPop`. -/
def specialPop (r : Roles) (id : ℕ) : Roles × Option ℕ :=
  ({ r with specialFish := r.specialFish.erase id }, r.specialFish.lookup id)

/-- The active bullets of all seats. -/
def activeBullets (r : Roles) : List Ref := (vals r.bulletActive).flatten

end Roles

end Halieutics
