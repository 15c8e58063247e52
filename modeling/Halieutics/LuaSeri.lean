/-
**Serialising Lua values: `lualib-src/lua-seri.c`.**

The arguments of every message between services are packed by `luaseri_pack` and unpacked by
`luaseri_unpack`.  A value is a byte with its type and a few bits more, and what it needs behind
this byte; a table is its array, of a length that `lua_rawlen` answers, and then its other entries,
in the order of `lua_next`, up to a `nil`.  The bytes are written into a list of blocks, which is
put together at the end.

Main definitions:

* `Halieutics.LuaSeri.Value` — **the values of Lua**;
* `Halieutics.LuaSeri.packOne`, `Halieutics.LuaSeri.luaseriPack` — **packing**;
* `Halieutics.LuaSeri.unpackOne`, `Halieutics.LuaSeri.luaseriUnpack` — **unpacking**.
-/

import Mathlib.Data.List.Basic
import Mathlib.Data.Nat.Notation
import Halieutics.LittleEndian

set_option relaxedAutoImplicit false
set_option autoImplicit false

namespace Halieutics.LuaSeri

open LittleEndian

/-! ### Values -/

/-- **A value.**  The entries of a table are in the order of `lua_next`; a number that is no integer
is written as its bits. -/
inductive Value where
  | nil
  | boolean (b : Bool)
  | integer (n : BitVec 64)
  | real (bits : BitVec 64)
  | pointer (p : BitVec 64)
  | string (s : List UInt8)
  | table (entries : List (Value × Value))
  | other (type : String)

/-- A table, as its entries. -/
abbrev Table := List (Value × Value)

def Value.isNil : Value → Bool
  | .nil => true
  | _ => false

/-- The same key.  No table is another one. -/
def rawEq : Value → Value → Bool
  | .boolean b, .boolean b' => b == b'
  | .integer n, .integer n' => n == n'
  | .real r, .real r' => r == r'
  | .pointer p, .pointer p' => p == p'
  | .string s, .string s' => s == s'
  | _, _ => false

/-- `lua_rawgeti`. -/
def rawgeti (t : Table) (i : ℕ) : Value :=
  match t.find? fun e => rawEq e.1 (.integer (BitVec.ofNat 64 i)) with
  | some e => e.2
  | none => .nil

/-- The exponent and the fraction of a number that is no integer. -/
def exponent (r : BitVec 64) : ℕ := r.toNat / 2 ^ 52 % 2048

def fraction (r : BitVec 64) : ℕ := r.toNat % 2 ^ 52

/-- Not a number. -/
def isNaN (r : BitVec 64) : Bool := exponent r == 2047 && fraction r != 0

/-- The integer that a number is, if it is one. -/
def realToInteger (r : BitVec 64) : Option (BitVec 64) :=
  let e := max (exponent r) 1
  let m := if exponent r = 0 then fraction r else 2 ^ 52 + fraction r
  let sign : ℤ := if r.toNat < 2 ^ 63 then 1 else -1
  let z : Option ℕ :=
    if exponent r = 2047 then none
    else if 1075 ≤ e then some (m * 2 ^ (e - 1075))
    else if m % 2 ^ (1075 - e) = 0 then some (m / 2 ^ (1075 - e))
    else none
  z.bind fun z => if -2 ^ 63 ≤ sign * z ∧ sign * z < 2 ^ 63 then
    some (BitVec.ofInt 64 (sign * z)) else none

/-- A key as it is stored: a number that is an integer is stored as one. -/
def tableKey : Value → Except String Value
  | .nil => .error "table index is nil"
  | .real r =>
      if isNaN r then .error "table index is NaN"
      else .ok (match realToInteger r with | some n => .integer n | none => .real r)
  | k => .ok k

/-- `lua_rawset`. -/
def rawset (t : Table) (k v : Value) : Except String Table :=
  match tableKey k with
  | .error e => .error e
  | .ok k =>
      if v.isNil then .ok (t.filter fun e => !rawEq e.1 k)
      else if t.any fun e => rawEq e.1 k then
        .ok (t.map fun e => if rawEq e.1 k then (e.1, v) else e)
      else .ok (t ++ [(k, v)])

/-! ### Blocks -/

/-- `struct write_block`: the blocks before the current one, what is written of it, and `len`. -/
structure WriteBlock where
  full : List (List UInt8) := []
  current : List UInt8 := []
  len : ℕ := 0

/-- Why packing stops: it raises, or `len` is no `int` any more. -/
inductive Stop where
  | raise (message : String)
  | overflow

/-- `b->len += n`. -/
def WriteBlock.count (b : WriteBlock) (n : ℕ) : Except Stop WriteBlock :=
  if b.len + n < 2 ^ 31 then .ok { b with len := b.len + n } else .error .overflow

/-- The loop of `wb_push`. -/
def wbPushLoop : ℕ → WriteBlock → List UInt8 → Except Stop WriteBlock
  | 0, b, _ => .ok b
  | rounds + 1, b, buf =>
      let b := if b.current.length = 128 then
        { b with full := b.full ++ [b.current], current := [] } else b
      if b.current.length + buf.length ≤ 128 then
        { b with current := b.current ++ buf }.count buf.length
      else
        let copy := 128 - b.current.length
        ({ b with current := b.current ++ buf.take copy }.count copy).bind fun b =>
          wbPushLoop rounds b (buf.drop copy)

/-- **`wb_push`**. -/
def wbPush (b : WriteBlock) (buf : List UInt8) :
    Except Stop WriteBlock := wbPushLoop (buf.length + 1) b buf

/-- **`seri`**: the blocks in one buffer. -/
def seri : List (List UInt8) → ℕ → Option (List UInt8)
  | _, 0 => some []
  | [], _ + 1 => none
  | b :: rest, len + 1 =>
      if 128 ≤ len + 1 then (seri rest (len + 1 - 128)).map fun s => b.take 128 ++ s
        else some (b.take (len + 1))

/-! ### Packing -/

/-- `COMBINE_TYPE`. -/
def combineType (t v : ℕ) : UInt8 := UInt8.ofNat (t ||| v <<< 3)

/-- **`wb_nil`**. -/
def wbNil (b : WriteBlock) : Except Stop WriteBlock := wbPush b [0]

/-- **`wb_boolean`**. -/
def wbBoolean (b : WriteBlock) (boolean : Bool) : Except Stop WriteBlock :=
  wbPush b [combineType 1 (if boolean then 1 else 0)]

/-- **`wb_integer`**. -/
def wbInteger (b : WriteBlock) (v : BitVec 64) : Except Stop WriteBlock :=
  if v = 0 then wbPush b [combineType 2 0]
  else if v ≠ (v.truncate 32).signExtend 64 then
    (wbPush b [combineType 2 6]).bind fun b => wbPush b (bytes 8 v.toNat)
  else if v.toInt < 0 then (wbPush b [combineType 2 4]).bind fun b =>
    wbPush b (bytes 4 (v.truncate 32).toNat)
  else if v.toInt < 0x100 then (wbPush b [combineType 2 1]).bind fun b => wbPush b (bytes 1 v.toNat)
  else if v.toInt < 0x10000 then (wbPush b [combineType 2 2]).bind fun b =>
    wbPush b (bytes 2 v.toNat)
  else (wbPush b [combineType 2 4]).bind fun b => wbPush b (bytes 4 v.toNat)

/-- **`wb_real`**. -/
def wbReal (b : WriteBlock) (v : BitVec 64) : Except Stop WriteBlock :=
  (wbPush b [combineType 2 8]).bind fun b => wbPush b (bytes 8 v.toNat)

/-- **`wb_pointer`**. -/
def wbPointer (b : WriteBlock) (v : BitVec 64) : Except Stop WriteBlock :=
  (wbPush b [3]).bind fun b => wbPush b (bytes 8 v.toNat)

/-- **`wb_string`**. -/
def wbString (b : WriteBlock) (str : List UInt8) : Except Stop WriteBlock :=
  let len := str.length
  if len < 32 then
    (wbPush b [combineType 4 len]).bind fun b => if 0 < len then wbPush b str else .ok b
  else if len < 0x10000 then
    (wbPush b [combineType 5 2]).bind fun b => (wbPush b (bytes 2 len)).bind fun b => wbPush b str
  else (wbPush b [combineType 5 4]).bind fun b => (wbPush b (bytes 4 len)).bind fun b =>
    wbPush b str

/-- A key in the array. -/
def inArray (n : ℕ) : Value → Bool
  | .integer x => 0 < x.toInt ∧ x.toInt ≤ n
  | _ => false

/-- What `wb_table_array` writes before the elements. -/
def wbSize (b : WriteBlock) (n : ℕ) : Except Stop WriteBlock :=
  if 31 ≤ n then (wbPush b [combineType 6 31]).bind fun b => wbInteger b (BitVec.ofNat 64 n)
  else wbPush b [combineType 6 n]

/-- **`wb_table`**: `wb_table_array` and `wb_table_hash`; `n` is what `lua_rawlen` answers, and
`packOne` packs a value. -/
def wbTable (packOne : WriteBlock → Value → Except Stop WriteBlock) (b : WriteBlock)
    (t : Table) (n : ℕ) :
    Except Stop WriteBlock :=
  (wbSize b n).bind fun b =>
    ((List.range' 1 n).foldlM (fun b i => packOne b (rawgeti t i)) b).bind fun b =>
      (t.foldlM (fun b e => if inArray n e.1 then .ok b else (packOne b e.1).bind fun b =>
        packOne b e.2) b).bind
        wbNil

section Packing

variable (rawlen : Table → ℕ)

/-- **`pack_one`**.  The first argument is how much deeper it may go: none, when `depth` is larger
than `MAX_DEPTH`. -/
def packOne : ℕ → WriteBlock → Value → Except Stop WriteBlock
  | 0, _, _ => .error (.raise "serialize can't pack too depth table")
  | _ + 1, b, .nil => wbNil b
  | _ + 1, b, .boolean v => wbBoolean b v
  | _ + 1, b, .integer v => wbInteger b v
  | _ + 1, b, .real v => wbReal b v
  | _ + 1, b, .pointer v => wbPointer b v
  | _ + 1, b, .string s => wbString b s
  | depth + 1, b, .table t => wbTable (packOne depth) b t (rawlen t)
  | _ + 1, _, .other type => .error (.raise ("Unsupport type " ++ type ++ " to serialize"))

/-- **`luaseri_pack`**; `none` when an `int` overflows. -/
def luaseriPack (vs : List Value) : Option (Except String (List UInt8)) :=
  match vs.foldlM (packOne rawlen 33) {} with
  | .error (.raise e) => some (.error e)
  | .error .overflow => none
  | .ok b => (seri (b.full ++ [b.current]) b.len).map .ok

end Packing

/-! ### Unpacking -/

/-- What is read from a stream, and the rest of it; `none` when a length is no `int`. -/
abbrev Result (α : Type) := Option (Except String (α × List UInt8))

/-- `invalid_stream`. -/
def invalid {α : Type} (s : List UInt8) :
    Result α := some (.error ("Invalid serialize stream " ++ toString s.length))

/-- Reading on. -/
def Result.then {α β : Type} (r : Result α) (f : α → List UInt8 → Result β) : Result β :=
  match r with
  | none => none
  | some (.error e) => some (.error e)
  | some (.ok (a, s)) => f a s

/-- `rb_read`, when it is invalid that so many bytes are not there. -/
def rbRead (s : List UInt8) (sz : ℕ) : Result (List UInt8) :=
  if s.length < sz then invalid s else some (.ok (s.take sz, s.drop sz))

/-- **`get_integer`**. -/
def getInteger (s : List UInt8) : ℕ → Result (BitVec 64)
  | 0 => some (.ok (0, s))
  | 1 => (rbRead s 1).then fun n s => some (.ok (BitVec.ofNat 64 (value n), s))
  | 2 => (rbRead s 2).then fun n s => some (.ok (BitVec.ofNat 64 (value n), s))
  | 4 => (rbRead s 4).then fun n s => some (.ok ((BitVec.ofNat 32 (value n)).signExtend 64, s))
  | 6 => (rbRead s 8).then fun n s => some (.ok (BitVec.ofNat 64 (value n), s))
  | _ => invalid s

/-- **`get_buffer`**. -/
def getBuffer (s : List UInt8) (len : ℕ) : Result Value :=
  if len < 2 ^ 31 then (rbRead s len).then fun p s => some (.ok (.string p, s)) else none

/-- The size of the array in `unpack_table`. -/
def arraySize (s : List UInt8) (cookie : ℕ) : Result ℕ :=
  if cookie = 31 then
    (rbRead s 1).then fun t s =>
      let type := value t
      if type &&& 7 ≠ 2 ∨ type >>> 3 = 8 then invalid s
      else (getInteger s (type >>> 3)).then fun n s => some (.ok ((n.truncate 32).toInt.toNat, s))
  else some (.ok (cookie, s))

section Loops

variable (unpackOne : List UInt8 → Result Value)

/-- The first loop of `unpack_table`, from the index `i` on. -/
def unpackArray : ℕ → ℕ → Table → List UInt8 → Result Table
  | 0, _, t, s => some (.ok (t, s))
  | n + 1, i, t, s =>
      (unpackOne s).then fun v s =>
        match rawset t (.integer (BitVec.ofNat 64 i)) v with
        | .error e => some (.error e)
        | .ok t => unpackArray n (i + 1) t s

/-- The second loop, for at most so many rounds. -/
def unpackHash : ℕ → Table → List UInt8 → Result Table
  | 0, _, _ => none
  | rounds + 1, t, s =>
      (unpackOne s).then fun k s =>
        if k.isNil then some (.ok (t, s))
        else
          (unpackOne s).then fun v s =>
            match rawset t k v with
            | .error e => some (.error e)
            | .ok t => unpackHash rounds t s

/-- **`unpack_table`**. -/
def unpackTable (rounds : ℕ) (s : List UInt8) (cookie : ℕ) : Result Value :=
  (arraySize s cookie).then fun n s =>
    (unpackArray unpackOne n 1 [] s).then fun t s =>
      (unpackHash unpackOne rounds t s).then fun t s => some (.ok (.table t, s))

/-- **`push_value`**. -/
def pushValue (rounds : ℕ) (s : List UInt8) (cookie : ℕ) : ℕ → Result Value
  | 0 => some (.ok (.nil, s))
  | 1 => some (.ok (.boolean (cookie != 0), s))
  | 2 =>
      if cookie = 8 then (rbRead s 8).then fun n s =>
        some (.ok (.real (BitVec.ofNat 64 (value n)), s))
      else (getInteger s cookie).then fun n s => some (.ok (.integer n, s))
  | 3 => (rbRead s 8).then fun n s => some (.ok (.pointer (BitVec.ofNat 64 (value n)), s))
  | 4 => getBuffer s cookie
  | 5 =>
      if cookie = 2 then (rbRead s 2).then fun n s => getBuffer s (value n)
      else if cookie ≠ 4 then invalid s
      else (rbRead s 4).then fun n s => getBuffer s (value n)
  | 6 => unpackTable unpackOne rounds s cookie
  | _ => invalid s

end Loops

/-- **`unpack_one`**.  The first argument bounds the rounds: each of them takes a byte. -/
def unpackOne : ℕ → List UInt8 → Result Value
  | 0, _ => none
  | rounds + 1, s =>
      (rbRead s 1).then fun t s => pushValue (unpackOne rounds) rounds s (value t >>> 3)
        (value t &&& 7)

/-- The loop of `luaseri_unpack`. -/
def unpackAll (rounds : ℕ) : ℕ → List Value → List UInt8 → Option (Except String (List Value))
  | 0, _, _ => none
  | k + 1, vs, s =>
      if s = [] then some (.ok vs)
      else
        match unpackOne rounds s with
        | none => none
        | some (.error e) => some (.error e)
        | some (.ok (v, s)) => unpackAll rounds k (vs ++ [v]) s

/-- **`luaseri_unpack`**. -/
def luaseriUnpack (s : List UInt8) : Option (Except String (List Value)) :=
  unpackAll (s.length + 1) (s.length + 1) [] s

end Halieutics.LuaSeri
