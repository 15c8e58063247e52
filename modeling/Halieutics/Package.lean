/-
**The package service: `src/service/package.c`.**

A package service stands between one socket and the Lua services.  It cuts the bytes of the socket
into frames, keeps the frames until somebody asks for them and the questions until there is a frame,
and frames what is to be written.  Every message is handled to its end before the next one, so a run
of the service is a list of messages.

What the service does to the world — replies, socket writes, timers — is collected in `log`, which
no code reads.  A byte of an allocated buffer that nobody has written is `none`.

Main definitions:

* `Package` — `struct package`;
* `queuePush`, `newMessage`, `response`, `serviceExit`, `command`, `sendOut`, `socketMessage`,
  `messageHandler` — the functions of the same names; `none` is a failed assertion, or an `int` that
  overflows;
* `handleAll` — a run of the service.
-/

import Halieutics.RingQueue
import Halieutics.Framing

set_option relaxedAutoImplicit false
set_option autoImplicit false

namespace Halieutics.PackageService

open RingQueue Framing

/-- `struct request`. -/
structure Request where
  source : ℕ
  session : ℤ
  deriving DecidableEq, Inhabited

/-- `struct response`. -/
structure Response where
  sz : ℕ := 0
  msg : List (Option UInt8) := []
  deriving DecidableEq, Inhabited

/-- `INT_MAX`. -/
def intMax : ℕ := 2147483647

/-- **`queue_push`** on a queue of elements of `sz` bytes: the size of the new array, `cap * q->sz`,
has to be an `int`. -/
def queuePush {α : Type} (sz : ℕ) (q : Queue α) (value : α) : Option (Queue α) :=
  q.tryPush (intMax / sz) value

/-- `sizeof(struct request)`. -/
def requestSz : ℕ := 8

/-- `sizeof(struct response)`. -/
def responseSz : ℕ := 16

/-- A buffer all of whose bytes are written. -/
def Response.ofBytes (bytes : List UInt8) : Response :=
  { sz := bytes.length, msg := bytes.map some }

/-- What the service does to the world. -/
inductive Effect where
  /-- An `R` command has come in. -/
  | asked (req : Request)
  /-- The reply to an `R` command: a frame, or `PTYPE_ERROR`. -/
  | answer (req : Request) (resp : Option Response)
  /-- The reply to an `I` command: `req`, `resp` and the two numbers of `uncomplete`. -/
  | info (source : ℕ) (session : ℤ) (req resp : ℕ) (uncomplete : ℤ × ℤ)
  /-- `PTYPE_ERROR` for a message the service does not know. -/
  | invalid (source : ℕ) (session : ℤ)
  /-- `SUCC`, `FAIL` or `CLOSED` for the manager. -/
  | report (dest : ℕ) (text : String)
  /-- `skynet_socket_send`. -/
  | write (bytes : List UInt8)
  /-- `skynet_socket_shutdown`. -/
  | shutdown
  /-- `TIMEOUT` and `EXIT`. -/
  | timeout | exit

/-- `struct package`. -/
structure Package where
  manager : ℕ := 0
  fd : ℤ := 0
  heartbeat : ℤ := 0
  recv : ℤ := 0
  init : Bool := false
  closed : Bool := false
  headerSz : ℕ := 0
  header : UInt8 × UInt8 := (0, 0)
  uncompleteSz : ℤ := 0
  uncomplete : Response := {}
  request : Queue Request := .init 4 (by decide)
  response : Queue Response := .init 4 (by decide)
  log : List Effect := []

/-- `package_create`. -/
def packageCreate : Package := { heartbeat := -1, uncompleteSz := -1 }

/-- One more effect. -/
def Package.mark (P : Package) (e : Effect) : Package := { P with log := P.log ++ [e] }

/-! ### Reading frames -/

/-- `skynet_malloc`. -/
def malloc (n : ℕ) : List (Option UInt8) := List.replicate n none

/-- `memcpy` to the offset `off` of a buffer. -/
def memcpy (dst : List (Option UInt8)) (off : ℕ) (src : List UInt8) : List (Option UInt8) :=
  dst.take off ++ src.map some ++ dst.drop (off + src.length)

/-- The first part of the loop of `new_message`: bytes for the payload that is being read.  The
bytes that are left; an inner `none` when the loop returns because the payload needs more. -/
def fillPayload (P : Package) (msg : List UInt8) : Option (Package × Option (List UInt8)) :=
  if 0 ≤ P.uncompleteSz then
    let off := ((P.uncomplete.sz : ℤ) - P.uncompleteSz).toNat
    if P.uncompleteSz ≤ msg.length then
      let n := P.uncompleteSz.toNat
      let resp := { P.uncomplete with msg := memcpy P.uncomplete.msg off (msg.take n) }
      (queuePush responseSz P.response resp).map fun queue =>
        ({ P with uncomplete := resp, response := queue, uncompleteSz := -1 }, some (msg.drop n))
    else
      some ({ P with
          uncomplete := { P.uncomplete with msg := memcpy P.uncomplete.msg off msg }
          uncompleteSz := P.uncompleteSz - msg.length }, none)
  else some (P, some msg)

/-- The end of the loop of `new_message`: the header is known. -/
def allocPayload (P : Package) (header : UInt8 × UInt8) : Package :=
  let sz := header.1.toNat * 256 + header.2.toNat
  { P with
    headerSz := 0
    header := header
    uncomplete := { sz := sz, msg := malloc sz }
    uncompleteSz := sz }

/-- The second part of the loop of `new_message`: the two bytes of the header.  The bytes that are
left; `none` when the loop returns.  The assertion on `header_sz` can fail. -/
def readHeader (P : Package) (msg : List UInt8) : Option (Package × Option (List UInt8)) :=
  match msg with
  | [] => some (P, none)
  | b :: rest =>
      if P.headerSz = 0 then
        match rest with
        | [] => some ({ P with header := (b, P.header.2), headerSz := 1 }, none)
        | c :: rest => some (allocPayload P (b, c), some rest)
      else if P.headerSz = 1 then some (allocPayload P (P.header.1, b), some rest)
      else none

theorem length_fillPayload {P P' : Package} {msg rest : List UInt8}
    (h : fillPayload P msg = some (P', some rest)) : rest.length ≤ msg.length := by
  unfold fillPayload at h
  split at h
  · dsimp only at h
    split at h
    · obtain ⟨queue, -, hout⟩ := Option.map_eq_some_iff.1 h
      obtain rfl := Option.some_inj.1 (Prod.mk.inj hout).2
      rw [List.length_drop]
      omega
    · simp at h
  · obtain rfl := Option.some_inj.1 (Prod.mk.inj (Option.some_inj.1 h)).2
    exact le_rfl

theorem length_readHeader {P P' : Package} {msg rest : List UInt8}
    (h : readHeader P msg = some (P', some rest)) : rest.length < msg.length := by
  unfold readHeader at h
  split at h
  · simp at h
  · split at h
    · split at h
      · simp at h
      · obtain ⟨-, rfl⟩ := by simpa using h
        simp only [List.length_cons]
        omega
    · split at h
      · obtain ⟨-, rfl⟩ := by simpa using h
        exact Nat.lt_succ_self _
      · cases h

/-- The loop of `new_message`. -/
def newMessageLoop (P : Package) (msg : List UInt8) : Option Package :=
  match _h : fillPayload P msg with
  | none => none
  | some (P, none) => some P
  | some (P, some rest) =>
      match _h' : readHeader P rest with
      | none => none
      | some (P, none) => some P
      | some (P, some rest) => newMessageLoop P rest
termination_by msg.length
decreasing_by
  have h₁ := length_fillPayload _h
  have h₂ := length_readHeader _h'
  omega

/-- **`new_message`**; `recv` counts the chunks between two heartbeats. -/
def newMessage (P : Package) (msg : List UInt8) : Option Package :=
  if intMax ≤ P.recv then none else newMessageLoop { P with recv := P.recv + 1 } msg

/-! ### Answering -/

/-- **`response`**: questions and frames are matched while there are both. -/
def response (P : Package) : Package :=
  match _h : P.request.pop with
  | none => P
  | some (req, request) =>
      match P.response.pop with
      | none => P
      | some (resp, rest) =>
          PackageService.response
            ({ P with request := request, response := rest }.mark (.answer req (some resp)))
termination_by P.request.size
decreasing_by exact Queue.size_of_pop _h

/-- **`service_exit`**: every question left is answered with an error, and the frames are
dropped. -/
def serviceExit (P : Package) : Package :=
  let requests := P.request.drain
  let responses := P.response.drain
  { P with
    closed := true
    request := requests.2
    response := responses.2
    log := P.log ++ requests.1.map (fun req => .answer req none) ++
      [.report P.manager "CLOSED", .exit] }

/-- The numbers `report_info` prints. -/
def reportInfo (P : Package) (source : ℕ) (session : ℤ) : Package :=
  let uncomplete : ℤ × ℤ :=
    if P.headerSz ≠ 0 then (-1, 0)
    else if P.uncompleteSz = 0 then (0, 0)
    else (P.uncompleteSz, P.uncomplete.sz)
  P.mark (.info source session P.request.size P.response.size uncomplete)

/-- The commands of a text message: its first byte. -/
inductive Command where
  | R | K | I | other
  deriving DecidableEq

/-- **`command`**. -/
def command (P : Package) (source : ℕ) (session : ℤ) : Command → Option Package
  | .R =>
      let req : Request := ⟨source, session⟩
      let P := P.mark (.asked req)
      if P.closed then some (P.mark (.answer req none))
      else
        match P.response.pop with
        | some (resp, rest) =>
            if P.request.empty then
              some ({ P with response := rest }.mark (.answer req (some resp)))
            else none
        | none => (queuePush requestSz P.request req).map fun queue => { P with request := queue }
  | .K => some (P.mark .shutdown)
  | .I => some (reportInfo P source session)
  | .other => some (P.mark (.invalid source session))

/-! ### Writing, and the other messages -/

/-- The bytes `send_out` writes; `none` when the payload is too long. -/
def outFrame (msg : List UInt8) : Option (List UInt8) :=
  let sz := msg.length
  if 0xffff < sz then none
  else some (UInt8.ofNat ((sz &&& 0xff00) >>> 8) :: UInt8.ofNat (sz &&& 0xff) :: msg)

/-- **`send_out`**. -/
def sendOut (P : Package) (msg : List UInt8) : Package :=
  match outFrame msg with
  | none => P
  | some bytes => P.mark (.write bytes)

/-- **`heartbeat`**. -/
def heartbeat (P : Package) : Package :=
  if P.recv = P.heartbeat then
    if P.closed then P else P.mark .shutdown
  else { P with heartbeat := 0, recv := 0 }.mark .timeout

/-- The messages of a socket. -/
inductive SocketMessage where
  | connect (id : ℤ)
  | close (id : ℤ)
  | error (id : ℤ)
  | data (buffer : List UInt8)
  | other

/-- The end of the connection: `SKYNET_SOCKET_TYPE_CLOSE` and `SKYNET_SOCKET_TYPE_ERROR`. -/
def socketClosed (P : Package) (id : ℤ) : Package :=
  let P := if !P.init && id == P.fd then { P with init := true }.mark (.report P.manager "FAIL")
    else P
  if id = P.fd then serviceExit (response P) else P

/-- **`socket_message`**. -/
def socketMessage (P : Package) : SocketMessage → Option Package
  | .connect id =>
      if !P.init && id == P.fd then some ({ P with init := true }.mark (.report P.manager "SUCC"))
      else some P
  | .close id => some (socketClosed P id)
  | .error id => some (socketClosed P id)
  | .data buffer => (newMessage P buffer).map response
  | .other => some P

/-- The messages of the service. -/
inductive Message where
  | text (source : ℕ) (session : ℤ) (c : Command)
  | client (msg : List UInt8)
  | timer
  | socket (smsg : SocketMessage)
  | error
  | other (source : ℕ) (session : ℤ)

/-- **`message_handler`**. -/
def messageHandler (P : Package) : Message → Option Package
  | .text source session c => command P source session c
  | .client msg => some (sendOut P msg)
  | .timer => some (heartbeat P)
  | .socket smsg => socketMessage P smsg
  | .error => some P
  | .other source session => if 0 < session then some (P.mark (.invalid source session)) else some P

/-- The service that `package_init` leaves for a manager and a socket. -/
def started (manager : ℕ) (fd : ℤ) : Package :=
  heartbeat { packageCreate with manager := manager, fd := fd }

/-- `package_init`, given the two numbers of its parameter. -/
def packageInit (manager : ℕ) (fd : ℤ) : Option Package :=
  if manager = 0 ∨ fd = 0 then none else some (started manager fd)

/-- **A run of the service.** -/
def handleAll (P : Package) : List Message → Option Package
  | [] => some P
  | m :: ms => (messageHandler P m).bind fun P => handleAll P ms

end Halieutics.PackageService
