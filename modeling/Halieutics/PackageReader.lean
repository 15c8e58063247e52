/-
**Questions and frames in the package service.**

A reader asks for a frame with an `R` command.  Questions and frames wait for each other in two
queues: `command` serves a question when a frame is waiting, `response` serves the questions that
wait when frames come in, and `service_exit` answers what is left with errors.

The invariant `Reader` reads the log of the service: the questions asked so far are those answered,
in the order of the answers, followed by those that wait; and the frames of the stream are those
delivered followed by those that wait.  No message breaks it while there is room in the queues, so
the assertion in `command` does not fail.

Main definitions:

* `Package.asked`, `Package.answers`, `Package.delivered` — the questions, the replies, and the
  replies that carry a frame;
* `stream`, `framesOf` — the bytes of a run, and their frames;
* `Room`, `Roomy` — the condition: the arrays of the queues stay within an `int`;
* `Reader` — the invariant.

Main results:

* `response_spec` — what `response` matches;
* `Reader.handle` — **every message keeps the invariant**;
* `reader_protocol` — **the protocol of the readers**, as long as there is room in the queues;
* `reader_overflow` — frames that nobody asks for use it up.
-/

import Halieutics.PackageFrames

set_option relaxedAutoImplicit false
set_option autoImplicit false

namespace Halieutics.PackageService

open RingQueue Framing

/-! ### Reading the log -/

/-- The question of an effect. -/
def Effect.asked? : Effect → Option Request
  | .asked req => some req
  | _ => none

/-- The reply to a question. -/
def Effect.answer? : Effect → Option (Request × Option Response)
  | .answer req resp => some (req, resp)
  | _ => none

/-- The questions, in the order they came in. -/
def Package.asked (P : Package) : List Request := P.log.filterMap Effect.asked?

/-- The replies, in the order they were sent. -/
def Package.answers (P : Package) : List (Request × Option Response) :=
  P.log.filterMap Effect.answer?

/-- The replies that carry a frame. -/
def Package.delivered (P : Package) : List (Request × Response) :=
  P.answers.filterMap fun a => a.2.map fun f => (a.1, f)

@[simp] theorem asked_mark (P : Package) (e : Effect) :
    (P.mark e).asked = P.asked ++ e.asked?.toList := by
  simp [Package.asked, Package.mark, List.filterMap_append, List.filterMap_cons]
  cases e.asked? <;> rfl

@[simp] theorem answers_mark (P : Package) (e : Effect) :
    (P.mark e).answers = P.answers ++ e.answer?.toList := by
  simp [Package.answers, Package.mark, List.filterMap_append, List.filterMap_cons]
  cases e.answer? <;> rfl

/-- The bytes a message brings in. -/
def Message.bytes : Message → List UInt8
  | .socket (.data buffer) => buffer
  | _ => []

/-- Where the service is in its stream. -/
def Package.reading (P : Package) : Decoder :=
  if 0 ≤ P.uncompleteSz then
    .body P.uncompleteSz.toNat
      (P.uncomplete.msg.take ((P.uncomplete.sz : ℤ) - P.uncompleteSz).toNat).reduceOption
  else if P.headerSz = 1 then .half P.header.1
  else .idle

/-- **There is room for a message**: the chunk can be counted, fewer than `2 ^ 26` frames wait when
those of the chunk are pushed, and fewer than `2 ^ 27` questions. -/
def Room (P : Package) : Message → Prop
  | .socket (.data buffer) =>
      P.recv < intMax ∧ P.response.size + (P.reading.run buffer).2.length < 2 ^ 26
  | .text _ _ .R => P.request.size + 1 < 2 ^ 27
  | _ => True

/-- **The condition**: there is room for each message of a run. -/
def Roomy (P : Package) : List Message → Prop
  | [] => True
  | m :: ms => Room P m ∧ ∀ P', messageHandler P m = some P' → Roomy P' ms

/-- The bytes of a run. -/
def stream (ms : List Message) : List UInt8 := ms.flatMap Message.bytes

/-- The frames of a stream. -/
def framesOf (bytes : List UInt8) : List Response := (Decoder.idle.run bytes).2.map .ofBytes

theorem framesOf_append (bytes more : List UInt8) :
    framesOf (bytes ++ more)
      = framesOf bytes ++ ((Decoder.idle.run bytes).1.run more).2.map .ofBytes := by
  rw [framesOf, Decoder.run_append, Decoder.readOn, List.map_append]
  rfl

/-! ### Matching -/

/-- **What `response` matches**: the oldest questions and the oldest frames, until one of the queues
is empty. -/
theorem response_spec (P : Package) :
    ∃ ps : List (Request × Response),
      P.request.toList = ps.map Prod.fst ++ (response P).request.toList ∧
      P.response.toList = ps.map Prod.snd ++ (response P).response.toList ∧
      ((response P).request.toList = [] ∨ (response P).response.toList = []) ∧
      response P = { P with
        request := (response P).request
        response := (response P).response
        log := P.log ++ ps.map fun p => .answer p.1 (some p.2) } := by
  fun_induction response P with
  | case1 P h =>
      exact ⟨[], rfl, rfl, Or.inl (P.request.pop_eq_none_iff.1 h), by simp⟩
  | case2 P req request h h' =>
      exact ⟨[], rfl, rfl, Or.inr (P.response.pop_eq_none_iff.1 h'), by simp⟩
  | case3 P req request h resp rest h' ih =>
      obtain ⟨ps, hreq, hresp, hidle, heq⟩ := ih
      refine ⟨(req, resp) :: ps, ?_, ?_, hidle, ?_⟩
      · rw [Queue.toList_of_pop h, List.map_cons, List.cons_append, ← hreq]
        rfl
      · rw [Queue.toList_of_pop h', List.map_cons, List.cons_append, ← hresp]
        rfl
      · rw [heq]
        simp [Package.mark]

/-! ### The invariant -/

/-- The questions and the frames of a service that has read `bytes`.  The replies are frames first
and then errors; before the end there are no errors, and no frame is lost. -/
structure Ledger (bytes : List UInt8) (P : Package) : Prop where
  reads : Reads P (Decoder.idle.run bytes).1
  asked : P.asked = P.answers.map Prod.fst ++ P.request.toList
  split : ∃ (ds : List (Request × Response)) (es : List Request),
    P.answers = ds.map (fun p => (p.1, some p.2)) ++ es.map (fun r => (r, none)) ∧
    ds.map Prod.snd <+: framesOf bytes ∧
    (P.closed = false → es = [] ∧ framesOf bytes = ds.map Prod.snd ++ P.response.toList)
  closed : P.closed = true → P.request.toList = []

/-- **The invariant**: questions and frames do not wait at the same time. -/
structure Reader (bytes : List UInt8) (P : Package) : Prop extends Ledger bytes P where
  idle : P.request.toList = [] ∨ P.response.toList = []

/-- The queues and the place in the stream are left alone, and nobody asks or is answered. -/
structure Quiet (P P' : Package) : Prop where
  request : P'.request = P.request
  response : P'.response = P.response
  closed : P'.closed = P.closed
  headerSz : P'.headerSz = P.headerSz
  header : P'.header = P.header
  uncompleteSz : P'.uncompleteSz = P.uncompleteSz
  uncomplete : P'.uncomplete = P.uncomplete
  asked : P'.asked = P.asked
  answers : P'.answers = P.answers

theorem reads_congr {P P' : Package} {s : Decoder} (h : Reads P s)
    (hsz : P'.headerSz = P.headerSz) (hheader : P'.header = P.header)
    (hun : P'.uncompleteSz = P.uncompleteSz) (hbuf : P'.uncomplete = P.uncomplete) :
    Reads P' s := by
  cases s with
  | idle => exact ⟨hun.trans h.1, hsz.trans h.2⟩
  | half hi => exact ⟨hun.trans h.1, hsz.trans h.2.1, by rw [hheader, h.2.2]⟩
  | body need got =>
      exact ⟨h.1, hsz.trans h.2.header, hun.trans h.2.missing, hbuf.trans h.2.buffer⟩

/-- The fields tell where the service is. -/
theorem reading_of_reads {P : Package} {s : Decoder} (h : Reads P s) : P.reading = s := by
  unfold Package.reading
  cases s with
  | idle =>
      rw [if_neg (by rw [h.1]; decide), if_neg (by rw [h.2]; decide)]
  | half hi =>
      rw [if_neg (by rw [h.1]; decide), if_pos h.2.1, h.2.2]
  | body need got =>
      have hh := h.2
      have hgot : (P.uncomplete.msg.take got.length).reduceOption = got := by
        rw [hh.buffer]
        dsimp only
        rw [List.take_append_of_le_length (by simp), List.take_of_length_le (by simp),
          List.reduceOption, List.filterMap_map]
        exact List.filterMap_some
      rw [if_pos (by rw [hh.missing]; omega), hh.off, hgot, hh.missing, Int.toNat_natCast]

section Steps

variable {bytes : List UInt8} {P P' : Package}

theorem Reader.quiet (h : Reader bytes P) (hq : Quiet P P') : Reader bytes P' where
  reads := reads_congr h.reads hq.headerSz hq.header hq.uncompleteSz hq.uncomplete
  asked := by rw [hq.asked, hq.answers, hq.request, h.asked]
  split := by rw [hq.answers, hq.closed, hq.response]; exact h.split
  closed := by rw [hq.closed, hq.request]; exact h.closed
  idle := by rw [hq.request, hq.response]; exact h.idle

/-- An effect that is neither a question nor a reply. -/
theorem quiet_mark (P : Package) {e : Effect} (ha : e.asked? = none) (hb : e.answer? = none) :
    Quiet P (P.mark e) :=
  ⟨rfl, rfl, rfl, rfl, rfl, rfl, rfl, by simp [ha], by simp [hb]⟩

theorem Quiet.trans {P'' : Package} (h : Quiet P P') (h' : Quiet P' P'') : Quiet P P'' :=
  ⟨h'.request.trans h.request, h'.response.trans h.response, h'.closed.trans h.closed,
    h'.headerSz.trans h.headerSz, h'.header.trans h.header, h'.uncompleteSz.trans h.uncompleteSz,
    h'.uncomplete.trans h.uncomplete, h'.asked.trans h.asked, h'.answers.trans h.answers⟩

theorem quiet_heartbeat (P : Package) : Quiet P (heartbeat P) := by
  unfold heartbeat
  split
  · split
    · exact ⟨rfl, rfl, rfl, rfl, rfl, rfl, rfl, rfl, rfl⟩
    · exact quiet_mark P rfl rfl
  · have hset : Quiet P { P with heartbeat := 0, recv := 0 } :=
      ⟨rfl, rfl, rfl, rfl, rfl, rfl, rfl, rfl, rfl⟩
    exact hset.trans (quiet_mark _ rfl rfl)

/-- The message that tells the manager about the connection. -/
theorem quiet_init (P : Package) (text : String) :
    Quiet P ({ P with init := true }.mark (.report P.manager text)) := by
  have hset : Quiet P { P with init := true } := ⟨rfl, rfl, rfl, rfl, rfl, rfl, rfl, rfl, rfl⟩
  exact hset.trans (quiet_mark _ rfl rfl)

/-- Answers with frames, appended to the log. -/
theorem answers_append (P : Package) (ps : List (Request × Response)) :
    (P.log ++ ps.map fun p => Effect.answer p.1 (some p.2)).filterMap Effect.answer?
      = P.answers ++ ps.map fun p => (p.1, some p.2) := by
  rw [List.filterMap_append, List.filterMap_map]
  congr 1
  exact congrFun List.filterMap_eq_map ps

/-- **`response` keeps the ledger, and one queue is empty after it.** -/
theorem Ledger.response (h : Ledger bytes P) : Reader bytes (PackageService.response P) := by
  obtain ⟨ps, hreq, hresp, hidle, heq⟩ := response_spec P
  have hclosed : (PackageService.response P).closed = P.closed := by rw [heq]
  have hasked : (PackageService.response P).asked = P.asked := by
    rw [heq]
    simp only [Package.asked, List.filterMap_append, List.filterMap_map]
    have hnone : ps.filterMap (Effect.asked? ∘ fun p => Effect.answer p.1 (some p.2)) = [] :=
      List.filterMap_eq_nil_iff.2 fun p _ => rfl
    rw [hnone, List.append_nil]
  have hanswers : (PackageService.response P).answers
      = P.answers ++ ps.map fun p => (p.1, some p.2) := by
    rw [heq]
    exact answers_append P ps
  -- A closed service has no questions left, so nothing is matched.
  have hnil : P.closed = true → ps = [] := by
    intro hc
    have := hreq.symm.trans (h.closed hc)
    simpa using (List.append_eq_nil_iff.1 this).1
  refine ⟨⟨?_, ?_, ?_, ?_⟩, hidle⟩
  · exact reads_congr h.reads (by rw [heq]) (by rw [heq]) (by rw [heq]) (by rw [heq])
  · rw [hasked, hanswers, h.asked, hreq, List.map_append, List.map_map, List.append_assoc]
    rfl
  · obtain ⟨ds, es, hsplit, hpre, hopen⟩ := h.split
    cases hc : P.closed with
    | true =>
        refine ⟨ds, es, ?_, hpre, ?_⟩
        · rw [hanswers, hsplit, hnil hc]
          simp
        · rw [hclosed, hc]
          exact fun h0 => absurd h0 (by decide)
    | false =>
        obtain ⟨rfl, hframes⟩ := hopen hc
        have hframes' : framesOf bytes
            = (ds ++ ps).map Prod.snd ++ (PackageService.response P).response.toList := by
          rw [hframes, hresp, List.map_append, List.append_assoc]
        refine ⟨ds ++ ps, [], ?_, ⟨_, hframes'.symm⟩, fun _ => ⟨rfl, hframes'⟩⟩
        rw [hanswers, hsplit]
        simp
  · intro hc
    have := hreq.symm.trans (h.closed (hclosed ▸ hc))
    exact (List.append_eq_nil_iff.1 this).2

/-- **`service_exit` answers every question that waits, with an error.** -/
theorem Ledger.serviceExit (h : Ledger bytes P) : Reader bytes (serviceExit P) := by
  obtain ⟨hreqs, hreq⟩ := P.request.drain_spec
  obtain ⟨-, hresp⟩ := P.response.drain_spec
  have hasked : (PackageService.serviceExit P).asked = P.asked := by
    simp only [Package.asked, PackageService.serviceExit, List.filterMap_append,
      List.filterMap_map]
    have hnone : P.request.drain.1.filterMap (Effect.asked? ∘ fun req => Effect.answer req none)
        = [] := List.filterMap_eq_nil_iff.2 fun p _ => rfl
    rw [hnone]
    simp [Effect.asked?]
  have hanswers : (PackageService.serviceExit P).answers
      = P.answers ++ P.request.toList.map fun r => (r, none) := by
    simp only [Package.answers, PackageService.serviceExit, List.filterMap_append,
      List.filterMap_map, ← hreqs]
    have hmap : P.request.drain.1.filterMap (Effect.answer? ∘ fun req => Effect.answer req none)
        = P.request.drain.1.map fun r => (r, none) :=
      congrFun List.filterMap_eq_map P.request.drain.1
    rw [hmap]
    simp [Effect.answer?]
  refine ⟨⟨reads_congr h.reads rfl rfl rfl rfl, ?_, ?_, fun _ => hreq⟩, Or.inl hreq⟩
  · rw [hasked, hanswers, h.asked, List.map_append, List.map_map]
    rw [show (PackageService.serviceExit P).request.toList = [] from hreq, List.append_nil]
    congr 1
    exact (List.map_id _).symm
  · obtain ⟨ds, es, hsplit, hpre, -⟩ := h.split
    refine ⟨ds, es ++ P.request.toList, ?_, hpre, fun hc => absurd hc Bool.noConfusion⟩
    rw [hanswers, hsplit, List.map_append, List.append_assoc]

/-- Bytes come in. -/
theorem Ledger.newMessage (h : Ledger bytes P) {buffer : List UInt8}
    (hroom : Room P (.socket (.data buffer))) :
    ∃ P', newMessage P buffer = some P' ∧ P'.closed = P.closed ∧ P'.fd = P.fd ∧
      Ledger (bytes ++ buffer) P' := by
  obtain ⟨hrecv, hframes⟩ := hroom
  rw [reading_of_reads h.reads] at hframes
  obtain ⟨P', hm⟩ := newMessage_isSome h.reads hrecv hframes
  obtain ⟨hrest, hr, hresp⟩ := newMessage_spec h.reads hm
  have hasked : P'.asked = P.asked := by rw [Package.asked, hrest.log]; rfl
  have hanswers : P'.answers = P.answers := by rw [Package.answers, hrest.log]; rfl
  refine ⟨P', hm, hrest.closed, hrest.fd, ?_, ?_, ?_, ?_⟩
  · rw [Decoder.run_append]
    exact hr
  · rw [hasked, hanswers, hrest.request, h.asked]
  · obtain ⟨ds, es, hsplit, hpre, hopen⟩ := h.split
    refine ⟨ds, es, hanswers.trans hsplit, ?_, ?_⟩
    · rw [framesOf_append]
      exact hpre.trans (List.prefix_append _ _)
    · rw [hrest.closed]
      intro hc
      obtain ⟨hes, hframes⟩ := hopen hc
      exact ⟨hes, by rw [framesOf_append, hframes, hresp, List.append_assoc]⟩
  · rw [hrest.closed, hrest.request]
    exact h.closed

/-- There is room for a question. -/
theorem queuePush_request {P : Package} {source : ℕ} {session : ℤ}
    (h : Room P (.text source session .R))
    (req : Request) : queuePush requestSz P.request req = some (P.request.push req) := by
  refine Queue.tryPush_of_room req ?_
  have hroom : P.request.size + 1 < 2 ^ 27 := h
  norm_num [intMax, requestSz]
  omega

/-- **An `R` command**: an error after the end, a frame that waits, or a place in the queue. -/
theorem command_cases (P : Package) {source : ℕ} {session : ℤ}
    (hroom : Room P (.text source session .R)) :
    (P.closed = true ∧ command P source session .R
      = some ((P.mark (.asked ⟨source, session⟩)).mark (.answer ⟨source, session⟩ none))) ∨
    (P.closed = false ∧ ∃ resp rest, P.response.pop = some (resp, rest) ∧
      (P.request.toList = [] → command P source session .R
        = some (({ P with response := rest }.mark (.asked ⟨source, session⟩)).mark
            (.answer ⟨source, session⟩ (some resp))))) ∨
    (P.closed = false ∧ P.response.pop = none ∧ command P source session .R
      = some ({ P with request := P.request.push ⟨source, session⟩ }.mark
          (.asked ⟨source, session⟩))) := by
  have hfields : ∀ e, (P.mark e).closed = P.closed ∧ (P.mark e).response = P.response ∧
      (P.mark e).request = P.request := fun _ => ⟨rfl, rfl, rfl⟩
  unfold command
  dsimp only
  rw [(hfields _).1, (hfields _).2.1, (hfields _).2.2]
  cases hc : P.closed with
  | true => exact Or.inl ⟨rfl, rfl⟩
  | false =>
      cases hp : P.response.pop with
      | none =>
          refine Or.inr (Or.inr ⟨rfl, rfl, ?_⟩)
          dsimp only
          rw [if_neg Bool.false_ne_true, queuePush_request hroom]
          rfl
      | some x =>
          refine Or.inr (Or.inl ⟨rfl, x.1, x.2, rfl, fun hempty => ?_⟩)
          dsimp only
          rw [if_pos ((P.request.empty_iff).2 hempty)]
          rfl

/-- **A question is answered or waits**, and the assertion holds. -/
theorem Reader.ask (h : Reader bytes P) {source : ℕ} {session : ℤ}
    (hroom : Room P (.text source session .R)) :
    ∃ P', command P source session .R = some P' ∧ P'.closed = P.closed ∧ P'.fd = P.fd ∧
      (P.closed = true → P'.answers = P.answers ++ [(⟨source, session⟩, none)]) ∧
      Reader bytes P' := by
  obtain ⟨ds, es, hsplit, hpre, hopen⟩ := h.split
  have hreads : ∀ {P'}, P'.headerSz = P.headerSz → P'.header = P.header →
      P'.uncompleteSz = P.uncompleteSz → P'.uncomplete = P.uncomplete →
      Reads P' (Decoder.idle.run bytes).1 := fun h₁ h₂ h₃ h₄ => reads_congr h.reads h₁ h₂ h₃ h₄
  rcases command_cases P hroom with
    ⟨hc, heq⟩ | ⟨hc, resp, rest, hp, heq⟩ | ⟨hc, hp, heq⟩
  · have hempty := h.closed hc
    refine ⟨_, heq, rfl, rfl, fun _ => by simp [Effect.answer?],
      ⟨hreads rfl rfl rfl rfl, ?_, ?_, fun _ => hempty⟩, Or.inl hempty⟩
    · change _ = List.map Prod.fst _ ++ P.request.toList
      simp [h.asked, hempty, Effect.asked?, Effect.answer?]
    · refine ⟨ds, es ++ [⟨source, session⟩], by simp [hsplit, Effect.answer?], hpre, ?_⟩
      exact fun h0 => absurd (hc.symm.trans h0) (by decide)
  · obtain ⟨rfl, hframes⟩ := hopen hc
    have hlist := Queue.toList_of_pop hp
    have hempty : P.request.toList = [] := h.idle.resolve_right (by simp [hlist])
    have hopened : ¬ P.closed = true := by simp [hc]
    have hframes' : framesOf bytes
        = (ds ++ [((⟨source, session⟩ : Request), resp)]).map Prod.snd ++ rest.toList := by
      simp [hframes, hlist]
    refine ⟨_, heq hempty, rfl, rfl, fun h0 => absurd h0 hopened,
      ⟨hreads rfl rfl rfl rfl, ?_, ?_, fun _ => hempty⟩, Or.inl hempty⟩
    · change _ = List.map Prod.fst _ ++ P.request.toList
      simp only [asked_mark, answers_mark, Effect.asked?, Effect.answer?, Option.toList]
      rw [show ({ P with response := rest } : Package).asked = P.asked from rfl,
        show ({ P with response := rest } : Package).answers = P.answers from rfl, h.asked, hempty]
      simp
    · refine ⟨ds ++ [(⟨source, session⟩, resp)], [], ?_, ⟨_, hframes'.symm⟩,
        fun _ => ⟨rfl, hframes'⟩⟩
      simp only [answers_mark, Effect.answer?, Option.toList]
      rw [show ({ P with response := rest } : Package).answers = P.answers from rfl, hsplit]
      simp
  · obtain ⟨rfl, hframes⟩ := hopen hc
    have hlist : P.response.toList = [] := P.response.pop_eq_none_iff.1 hp
    have hopened : ¬ P.closed = true := by simp [hc]
    refine ⟨_, heq, rfl, rfl, fun h0 => absurd h0 hopened,
      ⟨hreads rfl rfl rfl rfl, ?_, ?_, fun h0 => absurd h0 hopened⟩, Or.inr hlist⟩
    · change _ = List.map Prod.fst _ ++ (P.request.push ⟨source, session⟩).toList
      simp only [asked_mark, answers_mark, Effect.asked?, Effect.answer?, Option.toList,
        Queue.toList_push]
      rw [show ({ P with request := P.request.push ⟨source, session⟩ } : Package).asked
          = P.asked from rfl, h.asked, List.append_assoc, List.append_nil]
      rfl
    · refine ⟨ds, [], ?_, hpre, fun _ => ⟨rfl, hframes⟩⟩
      simp only [answers_mark, Effect.answer?, Option.toList, List.append_nil]
      exact hsplit.trans (by simp)

/-- The connection of the service ends. -/
def Message.ends (fd : ℤ) : Message → Bool
  | .socket (.close id) => id == fd
  | .socket (.error id) => id == fd
  | _ => false

/-- The socket of the service is the same, and what is closed stays closed. -/
structure Onward (P P' : Package) : Prop where
  fd : P'.fd = P.fd
  closed : P.closed = true → P'.closed = true

theorem onward_response (P : Package) : Onward P (response P) := by
  obtain ⟨ps, -, -, -, heq⟩ := response_spec P
  exact ⟨by rw [heq], fun h => by rw [heq]; exact h⟩

/-- The end of a connection. -/
theorem Reader.socketClosed (h : Reader bytes P) (id : ℤ) :
    Reader bytes (socketClosed P id) ∧ Onward P (socketClosed P id) ∧
      ((id == P.fd) = true → (socketClosed P id).closed = true) := by
  -- The message to the manager comes first, and changes neither the queues nor the socket.
  have hfirst : ∀ Q : Package, Reader bytes Q → Q.fd = P.fd → Q.closed = P.closed →
      Reader bytes (if id = Q.fd then serviceExit (response Q) else Q) ∧
        Onward P (if id = Q.fd then serviceExit (response Q) else Q) ∧
        ((id == P.fd) = true →
          (if id = Q.fd then serviceExit (response Q) else Q).closed = true) := by
    intro Q hQ hfd hclosed
    by_cases hid : id = Q.fd
    · rw [if_pos hid]
      refine ⟨hQ.toLedger.response.toLedger.serviceExit, ⟨?_, fun _ => rfl⟩, fun _ => rfl⟩
      exact (onward_response Q).fd.trans hfd
    · rw [if_neg hid]
      refine ⟨hQ, ⟨hfd, fun h => hclosed.trans h⟩, fun h => absurd ?_ hid⟩
      rw [hfd]
      exact beq_iff_eq.1 h
  unfold PackageService.socketClosed
  split
  · exact hfirst _ (h.quiet (quiet_init P "FAIL")) rfl rfl
  · exact hfirst P h rfl rfl

/-- **Every message keeps the invariant** when there is room for it, and no assertion fails. -/
theorem Reader.handle (h : Reader bytes P) {m : Message} (hroom : Room P m) :
    ∃ P', messageHandler P m = some P' ∧ Reader (bytes ++ m.bytes) P' ∧ Onward P P' ∧
      (m.ends P.fd = true → P'.closed = true) := by
  -- Most messages change nothing that the invariant reads.
  have hquiet : ∀ P', Quiet P P' → P'.fd = P.fd → messageHandler P m = some P' → m.bytes = [] →
      m.ends P.fd = false → ∃ P', messageHandler P m = some P' ∧ Reader (bytes ++ m.bytes) P' ∧
        Onward P P' ∧ (m.ends P.fd = true → P'.closed = true) := by
    intro P' hq hfd hm hbytes hends
    refine ⟨P', hm, by rw [hbytes, List.append_nil]; exact h.quiet hq,
      ⟨hfd, fun hc => hq.closed.trans hc⟩, fun he => absurd (hends.symm.trans he) (by decide)⟩
  have hrefl : Quiet P P := ⟨rfl, rfl, rfl, rfl, rfl, rfl, rfl, rfl, rfl⟩
  cases m with
  | text source session c =>
      cases c with
      | R =>
          obtain ⟨P', hP', hclosed, hfd, -, hr⟩ := h.ask hroom
          exact ⟨P', hP', (List.append_nil bytes).symm ▸ hr,
            ⟨hfd, fun hc => hclosed.trans hc⟩, fun he => Bool.noConfusion he⟩
      | K => exact hquiet _ (quiet_mark P rfl rfl) rfl rfl rfl rfl
      | I => exact hquiet _ (quiet_mark P rfl rfl) rfl rfl rfl rfl
      | other => exact hquiet _ (quiet_mark P rfl rfl) rfl rfl rfl rfl
  | client msg =>
      cases hf : outFrame msg with
      | none =>
          exact hquiet P hrefl rfl (by simp [messageHandler, sendOut, hf]) rfl rfl
      | some out =>
          exact hquiet (P.mark (.write out)) (quiet_mark P rfl rfl) rfl
            (by simp [messageHandler, sendOut, hf]) rfl rfl
  | timer =>
      refine hquiet _ (quiet_heartbeat P) ?_ rfl rfl rfl
      unfold heartbeat
      split
      · split <;> rfl
      · rfl
  | socket smsg =>
      cases smsg with
      | connect id =>
          by_cases hc : (!P.init && id == P.fd) = true
          · exact hquiet _ (quiet_init P "SUCC") rfl
              (by rw [messageHandler, socketMessage, if_pos hc]) rfl rfl
          · exact hquiet P hrefl rfl (by rw [messageHandler, socketMessage, if_neg hc]) rfl rfl
      | close id =>
          obtain ⟨hr, ho, hends⟩ := h.socketClosed id
          exact ⟨_, rfl, (List.append_nil bytes).symm ▸ hr, ho, hends⟩
      | error id =>
          obtain ⟨hr, ho, hends⟩ := h.socketClosed id
          exact ⟨_, rfl, (List.append_nil bytes).symm ▸ hr, ho, hends⟩
      | data buffer =>
          obtain ⟨P', hm, hclosed, hfd, hl⟩ := h.toLedger.newMessage hroom
          have ho := onward_response P'
          refine ⟨response P', by rw [messageHandler, socketMessage, hm, Option.map_some],
            hl.response, ⟨ho.fd.trans hfd, fun hc => ho.closed (hclosed.trans hc)⟩,
            fun he => Bool.noConfusion he⟩
      | other => exact hquiet P hrefl rfl rfl rfl rfl
  | error => exact hquiet P hrefl rfl rfl rfl rfl
  | other source session =>
      by_cases hs : 0 < session
      · exact hquiet _ (quiet_mark P rfl rfl) rfl (by rw [messageHandler, if_pos hs]) rfl rfl
      · exact hquiet P hrefl rfl (by rw [messageHandler, if_neg hs]) rfl rfl

/-- **Every run keeps the invariant** when there is room. -/
theorem Reader.handleAll (h : Reader bytes P) {ms : List Message} (hroom : Roomy P ms) :
    ∃ P', handleAll P ms = some P' ∧ Reader (bytes ++ stream ms) P' ∧ Onward P P' ∧
      (ms.any (Message.ends P.fd) = true → P'.closed = true) := by
  induction ms generalizing bytes P with
  | nil =>
      exact ⟨P, rfl, by simpa [stream] using h, ⟨rfl, id⟩, fun he => absurd he (by simp)⟩
  | cons m ms ih =>
      obtain ⟨P₁, hm, hr, ho, hends⟩ := h.handle hroom.1
      obtain ⟨P', hms, hr', ho', hends'⟩ := ih hr (hroom.2 P₁ hm)
      refine ⟨P', by rw [PackageService.handleAll, hm, Option.bind_some, hms], ?_,
        ⟨ho'.fd.trans ho.fd, fun hc => ho'.closed (ho.closed hc)⟩, ?_⟩
      · rw [stream, List.flatMap_cons, ← List.append_assoc]
        exact hr'
      · rw [List.any_cons, Bool.or_eq_true]
        rintro (he | he)
        · exact ho'.closed (hends he)
        · exact hends' (by rw [ho.fd]; exact he)

end Steps

/-! ### The protocol -/

theorem reader_started (manager : ℕ) (fd : ℤ) : Reader [] (started manager fd) := by
  refine Reader.quiet (P := { packageCreate with manager := manager, fd := fd }) ?_
    (quiet_heartbeat _)
  have hempty : ∀ {α : Type} [Inhabited α], (Queue.init 4 (by decide) : Queue α).toList = [] :=
    Queue.toList_init _ _
  refine ⟨⟨⟨rfl, rfl⟩, ?_, ⟨[], [], rfl, List.nil_prefix, fun _ => ⟨rfl, ?_⟩⟩, fun _ => hempty⟩,
    Or.inl hempty⟩
  · exact (hempty (α := Request)).symm
  · exact (hempty (α := Response)).symm

/-- The replies with a frame are the first ones. -/
theorem delivered_eq {P : Package} {ds : List (Request × Response)} {es : List Request}
    (h : P.answers = ds.map (fun p => (p.1, some p.2)) ++ es.map (fun r => (r, none))) :
    P.delivered = ds := by
  rw [Package.delivered, h, List.filterMap_append, List.filterMap_map, List.filterMap_map]
  have hnone : es.filterMap ((fun a : Request × Option Response => a.2.map fun f => (a.1, f)) ∘
      fun r => (r, none)) = [] := List.filterMap_eq_nil_iff.2 fun r _ => rfl
  rw [hnone, List.append_nil]
  exact (congrFun List.filterMap_eq_map ds).trans (List.map_id ds)

/-- After the end a question needs no room. -/
theorem command_of_closed {P : Package} (h : P.closed = true) (source : ℕ) (session : ℤ) :
    command P source session .R
      = some ((P.mark (.asked ⟨source, session⟩)).mark (.answer ⟨source, session⟩ none)) := by
  unfold command
  dsimp only
  rw [if_pos (show (P.mark (.asked ⟨source, session⟩)).closed = true from h)]

/-- **The protocol of the readers**, as long as there is room.  In every run no assertion fails, one
of the two queues is empty, the `k`-th frame delivered is the `k`-th of the stream and answers the
`k`-th question, the replies go to the first questions, one each, and the other questions wait;
until the connection ends no frame is lost; and once it has ended nobody waits, and every further
question is answered with an error. -/
theorem reader_protocol (manager : ℕ) (fd : ℤ) (ms : List Message)
    (hroom : Roomy (started manager fd) ms) :
    ∃ P, handleAll (started manager fd) ms = some P ∧
      (P.request.toList = [] ∨ P.response.toList = []) ∧
      (∀ (k : ℕ) (req : Request) (frame : Response), P.delivered[k]? = some (req, frame) →
        P.asked[k]? = some req ∧ (framesOf (stream ms))[k]? = some frame) ∧
      P.asked = P.answers.map Prod.fst ++ P.request.toList ∧
      P.answers.length + P.request.toList.length = P.asked.length ∧
      (P.closed = false → framesOf (stream ms) = P.delivered.map Prod.snd ++ P.response.toList) ∧
      (ms.any (Message.ends fd) = true → P.closed = true) ∧
      (P.closed = true → P.request.toList = [] ∧ ∀ source session,
        ∃ P', messageHandler P (.text source session .R) = some P' ∧
          P'.answers = P.answers ++ [(⟨source, session⟩, none)]) := by
  obtain ⟨P, hms, hr, -, hends⟩ := (reader_started manager fd).handleAll hroom
  rw [List.nil_append] at hr
  have hfd : (started manager fd).fd = fd := by
    unfold started heartbeat
    split
    · split <;> rfl
    · rfl
  rw [hfd] at hends
  obtain ⟨ds, es, hsplit, ⟨more, hpre⟩, hopen⟩ := hr.split
  have hdelivered := delivered_eq hsplit
  refine ⟨P, hms, hr.idle, ?_, hr.asked, ?_, ?_, hends, ?_⟩
  · rw [hdelivered]
    intro k req f hk
    have hlt : k < ds.length := (List.getElem?_eq_some_iff.1 hk).1
    refine ⟨?_, ?_⟩
    · rw [hr.asked, hsplit, List.map_append, List.append_assoc,
        List.getElem?_append_left (by simpa using hlt), List.map_map, List.getElem?_map, hk]
      rfl
    · rw [← hpre, List.getElem?_append_left (by simpa using hlt), List.getElem?_map, hk]
      rfl
  · rw [hr.asked, List.length_append, List.length_map]
  · rw [hdelivered]
    exact fun hc => (hopen hc).2
  · exact fun hc => ⟨hr.closed hc, fun source session =>
      ⟨_, command_of_closed hc source session, by simp [Effect.answer?]⟩⟩

/-- A question waits for a frame of one byte. -/
theorem reader_protocol_oneFrame :
    ∃ P, handleAll (started 1 3) [.text 5 1 .R, .socket (.data [0, 1, 7])] = some P ∧
      (P.closed = false → P.delivered.map Prod.snd ++ P.response.toList = [.ofBytes [7]]) := by
  have hquestion : Room (started 1 3) (.text 5 1 .R) := by
    change (started 1 3).request.size + 1 < 2 ^ 27
    decide
  have hroom : Roomy (started 1 3) [.text 5 1 .R, .socket (.data [0, 1, 7])] := by
    refine ⟨hquestion, fun P' hP' => ⟨?_, fun _ _ => trivial⟩⟩
    obtain rfl := Option.some_inj.1 hP'
    exact ⟨by decide, by decide⟩
  obtain ⟨P, hP, -, -, -, -, hframes, -⟩ := reader_protocol 1 3 _ hroom
  exact ⟨P, hP, fun hc => (hframes hc).symm⟩

theorem small_started : Small (started 1 3) := ⟨by decide, 2, rfl⟩

/-- **`2 ^ 26` frames that nobody has asked for are too many.** -/
theorem reader_overflow :
    ¬ ∀ (manager : ℕ) (fd : ℤ) (ms : List Message), ∃ P,
    handleAll (started manager fd) ms = some P ∧
      (P.request.toList = [] ∨ P.response.toList = []) := by
  intro hall
  obtain ⟨frames, hframes⟩ : ∃ frames,
    frames = List.replicate (2 ^ 26) ([] : List UInt8) := ⟨_, rfl⟩
  have hmany : frames.length = 2 ^ 26 := by rw [hframes, List.length_replicate]
  have hrun : Decoder.idle.run (frames.flatMap frame) = (.idle, frames) := by
    refine Decoder.run_frames frames fun p hp => ?_
    rw [hframes] at hp
    rw [List.eq_of_mem_replicate hp]
    exact Nat.zero_le _
  obtain ⟨P, hP, -⟩ := hall 1 3 [.socket (.data (frames.flatMap frame))]
  obtain ⟨P₁, hm, -⟩ := Option.bind_eq_some_iff.1 hP
  obtain ⟨P₂, hm, -⟩ := Option.map_eq_some_iff.1 hm
  have hreads : Reads (started 1 3) .idle := (reader_started 1 3).reads
  obtain ⟨-, -, hresp⟩ := newMessage_spec hreads hm
  rw [hrun] at hresp
  have hlt := (small_started.newMessage hm).size_lt
  rw [← Queue.length_toList, hresp, List.length_append, List.length_map, hmany] at hlt
  exact absurd hlt (by omega)

end Halieutics.PackageService
