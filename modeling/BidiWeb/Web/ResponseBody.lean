/-
  BidiWeb.Web.ResponseBody

  How a streaming response is decoded by the two browser transports: `iterate`
  of `connect-websocket-transport.ts` and `parseResponseBody` of
  `connect-webtransport-transport.ts`, both over `readResponseBody` of
  `webtransport-helper.ts`.

  `parse` and `endStreamFromJson` of `@connectrpc/connect` are parameters.
  A loop is run to the point where it ends, throws or can only wait.
-/

import BidiWeb.Core.Wire
import BidiWeb.Lib.FetchHeaders

namespace BidiWeb
namespace Web

open BidiWeb.Lib
open BidiWeb.Core (JsError Code)

-- ============================================================================
-- The shared reader
-- ============================================================================

/-- A value thrown at the consumer, with the metadata of a `ConnectError`. -/
structure ResponseError where
  reason : JsError
  metadata : Headers := {}
deriving DecidableEq

/-- How an async loop stands when it yields no more. -/
inductive Ending where
  | done
  | thrown (error : ResponseError)
  /-- It waits for the request iterator. -/
  | waiting
deriving DecidableEq

/-- `writePromise`, as the reader of the response finds it. -/
inductive WritePromise where
  | fulfilled
  | pending
  /-- It rejects while the read after so many envelopes is awaited. -/
  | rejected (reads : Nat) (reason : JsError)
deriving DecidableEq

/-- What `readResponseBody` yields, and how it ends. -/
structure Body where
  envelopes : List Envelope
  ending : Ending
deriving DecidableEq

/-- `await writePromise`. -/
def WritePromise.await : WritePromise → Ending
  | .fulfilled => .done
  | .pending => .waiting
  | .rejected _ reason => .thrown { reason }

/-- `readResponseBody()` on the envelopes of a response and its end. -/
def readResponseBody : WritePromise → List Envelope → Body
  | .rejected 0 reason, _ => { envelopes := [], ending := .thrown { reason } }
  | writePromise, [] => { envelopes := [], ending := writePromise.await }
  | .rejected (reads + 1) reason, env :: rest =>
      let body := readResponseBody (.rejected reads reason) rest
      { body with envelopes := env :: body.envelopes }
  | writePromise, env :: rest =>
      let body := readResponseBody writePromise rest
      { body with envelopes := env :: body.envelopes }

-- ============================================================================
-- The two loops
-- ============================================================================

/-- The result of `endStreamFromJson`. -/
structure EndStream where
  metadata : Headers := {}
  error : Option ResponseError := none

/-- What a loop has handed to its consumer, and how it stands. -/
structure Decoded (M : Type*) where
  messages : List M := []
  trailer : Headers
  ending : Ending

def Decoded.yield {M : Type*} (message : M) (d : Decoded M) : Decoded M :=
  { d with messages := message :: d.messages }

/-- `n.toString(16)`. -/
def toString16 (n : UInt8) : String := String.ofList (Nat.toDigits 16 n.toNat)

def unexpectedFlag (flags : UInt8) : JsError :=
  .connectError ("protocol error: unexpected envelope flag 0x" ++ toString16 flags) Code.internal

def missingEndStream : JsError := .connectError "missing EndStreamResponse" Code.internal

section Loops

variable {M : Type*} (parse : Bytes → Except JsError M)
  (endStreamFromJson : Bytes → Except JsError EndStream)

/-- The loop of `iterate()` of the WebSocket transport. -/
def iterateLoop (ending : Ending) : List Envelope → Headers → Decoded M
  | [], responseTrailers => { trailer := responseTrailers, ending }
  | env :: rest, responseTrailers =>
      if env.flag = flagEnvelopeEndStream then
        match endStreamFromJson env.payload with
        | .error reason => { trailer := responseTrailers, ending := .thrown { reason } }
        | .ok { metadata, error } =>
            let trailer := metadata.entries.foldl (fun t e => t.append e.1 e.2) responseTrailers
            match error with
            | some error => { trailer, ending := .thrown error }
            | none => { trailer, ending := .done }
      else if env.flag ≠ flagEnvelopeData ∧ env.flag ≠ flagEnvelopeCompressed then
        { trailer := responseTrailers, ending := .thrown { reason := unexpectedFlag env.flag } }
      else
        match parse env.payload with
        | .error reason => { trailer := responseTrailers, ending := .thrown { reason } }
        | .ok message => (iterateLoop ending rest responseTrailers).yield message

/-- The loop of `parseResponseBody()` of the WebTransport transport. -/
def parseLoop (responseHeaders : Headers) (ending : Ending) :
    List Envelope → Bool → Headers → Decoded M
  | [], endStreamReceived, trailer =>
      match ending with
      | .done =>
          if endStreamReceived then { trailer, ending := .done }
          else { trailer, ending := .thrown { reason := missingEndStream } }
      | .thrown error => { trailer, ending := .thrown error }
      | .waiting => { trailer, ending := .waiting }
  | env :: rest, endStreamReceived, trailer =>
      if env.flag = flagEnvelopeData ∨ env.flag = flagEnvelopeCompressed then
        match parse env.payload with
        | .error reason => { trailer, ending := .thrown { reason } }
        | .ok message =>
            (parseLoop responseHeaders ending rest endStreamReceived trailer).yield message
      else if env.flag = flagEnvelopeEndStream then
        match endStreamFromJson env.payload with
        | .error reason => { trailer, ending := .thrown { reason } }
        | .ok { metadata, error } =>
            match error with
            | some error =>
                let errorMetadata := responseHeaders.entries.foldl
                  (fun t e => t.append e.1 e.2) error.metadata
                { trailer, ending := .thrown { error with metadata := errorMetadata } }
            | none =>
                parseLoop responseHeaders ending rest true
                  (metadata.entries.foldl (fun t e => t.set e.1 e.2) trailer)
      else { trailer, ending := .thrown { reason := unexpectedFlag env.flag } }

variable (writePromise : WritePromise) (responseHeaders : Headers) (envelopes : List Envelope)

/-- `iterate()` over `readResponseBody()`. -/
def iterate : Decoded M :=
  let body := readResponseBody writePromise envelopes
  iterateLoop parse endStreamFromJson body.ending body.envelopes {}

/-- `parseResponseBody()` over `readResponseBody()`. -/
def parseResponseBody : Decoded M :=
  let body := readResponseBody writePromise envelopes
  parseLoop parse endStreamFromJson responseHeaders body.ending body.envelopes false {}

end Loops

-- ============================================================================
-- What an envelope is to a reader
-- ============================================================================

/-- What one envelope of a response body stands for. -/
inductive Item (M : Type*) where
  | message (m : M)
  /-- An unexpected flag, a message or an end-stream that does not parse. -/
  | fault (reason : JsError)
  /-- An end-stream with an error. -/
  | failure (metadata : Headers) (error : ResponseError)
  /-- An error-free end-stream. -/
  | success (metadata : Headers)

section Items

variable {M : Type*} (parse : Bytes → Except JsError M)
  (endStreamFromJson : Bytes → Except JsError EndStream)

def item (env : Envelope) : Item M :=
  if env.flag = flagEnvelopeEndStream then
    match endStreamFromJson env.payload with
    | .error reason => .fault reason
    | .ok { metadata, error := some error } => .failure metadata error
    | .ok { metadata, error := none } => .success metadata
  else if env.isMessage then
    match parse env.payload with
    | .error reason => .fault reason
    | .ok m => .message m
  else .fault (unexpectedFlag env.flag)

/-- A data envelope whose message parses. -/
def isReadable (env : Envelope) : Bool :=
  match item parse endStreamFromJson env with
  | .message _ => true
  | _ => false

/-- An error-free end-stream envelope. -/
def isSuccess (env : Envelope) : Bool :=
  match item parse endStreamFromJson env with
  | .success _ => true
  | _ => false

variable {parse endStreamFromJson}

theorem flag_of_message {env : Envelope} {m : M}
    (h : item parse endStreamFromJson env = .message m) :
    env.flag ≠ flagEnvelopeEndStream ∧ env.isMessage = true ∧ parse env.payload = .ok m := by
  unfold item at h
  split at h
  · split at h <;> cases h
  · rename_i hend
    split at h
    · rename_i hmessage
      split at h
      · cases h
      · rename_i m' hm'
        cases h
        exact ⟨hend, hmessage, hm'⟩
    · cases h

theorem iterateLoop_cons (ending : Ending) (env : Envelope) (rest : List Envelope) (t : Headers) :
    iterateLoop parse endStreamFromJson ending (env :: rest) t =
      match item parse endStreamFromJson env with
      | .message m => (iterateLoop parse endStreamFromJson ending rest t).yield m
      | .fault reason => { trailer := t, ending := .thrown { reason } }
      | .failure metadata error =>
          { trailer := metadata.entries.foldl (fun t e => t.append e.1 e.2) t
            ending := .thrown error }
      | .success metadata =>
          { trailer := metadata.entries.foldl (fun t e => t.append e.1 e.2) t,
            ending := .done } := by
  simp only [iterateLoop, item, Envelope.isMessage]
  by_cases hend : env.flag = flagEnvelopeEndStream
  · simp only [hend, if_true]
    cases endStreamFromJson env.payload with
    | error reason => rfl
    | ok e =>
        obtain ⟨metadata, error⟩ := e
        cases error <;> rfl
  · simp only [hend, if_false]
    by_cases hmessage : env.flag = flagEnvelopeData ∨ env.flag = flagEnvelopeCompressed
    · have hnot : ¬ (env.flag ≠ flagEnvelopeData ∧ env.flag ≠ flagEnvelopeCompressed) :=
        fun h => hmessage.elim h.1 h.2
      simp only [hnot, if_false, Bool.or_eq_true, decide_eq_true_eq, hmessage, if_true]
      cases parse env.payload <;> rfl
    · have hboth := not_or.mp hmessage
      simp [hboth.1, hboth.2]

theorem parseLoop_cons (responseHeaders : Headers) (ending : Ending) (env : Envelope)
    (rest : List Envelope) (received : Bool) (t : Headers) :
    parseLoop parse endStreamFromJson responseHeaders ending (env :: rest) received t =
      match item parse endStreamFromJson env with
      | .message m =>
          (parseLoop parse endStreamFromJson responseHeaders ending rest received t).yield m
      | .fault reason => { trailer := t, ending := .thrown { reason } }
      | .failure _ error =>
          { trailer := t
            ending := .thrown { error with
              metadata := responseHeaders.entries.foldl (fun t e => t.append e.1 e.2)
                error.metadata } }
      | .success metadata =>
          parseLoop parse endStreamFromJson responseHeaders ending rest true
            (metadata.entries.foldl (fun t e => t.set e.1 e.2) t) := by
  simp only [parseLoop, item, Envelope.isMessage]
  by_cases hend : env.flag = flagEnvelopeEndStream
  · have hnot : ¬ (env.flag = flagEnvelopeData ∨ env.flag = flagEnvelopeCompressed) := by
      rw [hend]
      decide
    simp only [if_neg hnot, if_pos hend]
    cases endStreamFromJson env.payload with
    | error reason => rfl
    | ok e =>
        obtain ⟨metadata, error⟩ := e
        cases error <;> rfl
  · by_cases hmessage : env.flag = flagEnvelopeData ∨ env.flag = flagEnvelopeCompressed
    · simp only [hend, hmessage, Bool.or_eq_true, decide_eq_true_eq, if_true, if_false]
      cases parse env.payload <;> rfl
    · simp [hend, hmessage]

end Items

-- ============================================================================
-- Decoding alike
-- ============================================================================

/-- The code of a `ConnectError`. -/
def ResponseError.code? (e : ResponseError) : Option Code :=
  match e.reason with
  | .connectError _ code => some code
  | .error _ | .typeError _ => none

/-- Both end normally, both with an error of one code, or both wait. -/
def Ending.Alike : Ending → Ending → Prop
  | .done, .done => True
  | .thrown e, .thrown e' => e.code? = e'.code?
  | .waiting, .waiting => True
  | _, _ => False

section Alike

variable {M : Type*} (parse : Bytes → Except JsError M)
  (endStreamFromJson : Bytes → Except JsError EndStream)

/-- The messages placed before the first end-stream. -/
def placedMessages (es : List Envelope) : List M :=
  (es.takeWhile fun env => env.flag ≠ flagEnvelopeEndStream).filterMap fun env =>
    if env.isMessage then (parse env.payload).toOption else none

/-- What is asked of either loop: it ends normally only after an error-free
    end-stream, yields nothing placed after the first end-stream, and does not
    wait for the request once an end-stream was there to read. -/
structure Proper (es : List Envelope) (d : Decoded M) : Prop where
  done : d.ending = .done → ∃ env ∈ es, isSuccess parse endStreamFromJson env = true
  placed : d.messages <+: placedMessages parse es
  settled : (∃ env ∈ es, env.flag = flagEnvelopeEndStream) → d.ending ≠ .waiting

/-- The two transports decode a response alike, and both as they should. -/
structure DecodedAlike (writePromise : WritePromise) (responseHeaders : Headers)
    (es : List Envelope) : Prop where
  messages : (iterate parse endStreamFromJson writePromise es).messages =
    (parseResponseBody parse endStreamFromJson writePromise responseHeaders es).messages
  ending : (iterate parse endStreamFromJson writePromise es).ending.Alike
    (parseResponseBody parse endStreamFromJson writePromise responseHeaders es).ending
  iterate : Proper parse endStreamFromJson es (iterate parse endStreamFromJson writePromise es)
  parseResponseBody : Proper parse endStreamFromJson es
    (parseResponseBody parse endStreamFromJson writePromise responseHeaders es)

/-- The envelopes that are read before the request fails. -/
def WritePromise.seen : WritePromise → List Envelope → List Envelope
  | .rejected reads _, es => es.take reads
  | .fulfilled, es | .pending, es => es

/-- Behind the readable messages, and unless the request fails before: no
    end-stream and a request that has not finished, something that both
    refuse, or only error-free end-streams and a request that has finished. -/
def EndsTogether (writePromise : WritePromise) (es : List Envelope) : Prop :=
  match (writePromise.seen es).dropWhile (isReadable parse endStreamFromJson) with
  | [] => writePromise ≠ .fulfilled
  | env :: rest =>
      isSuccess parse endStreamFromJson env = true →
        (∀ e ∈ rest, isSuccess parse endStreamFromJson e = true) ∧ writePromise = .fulfilled

variable {parse endStreamFromJson}

theorem readResponseBody_eq (writePromise : WritePromise) (es : List Envelope) :
    readResponseBody writePromise es =
      { envelopes := writePromise.seen es, ending := writePromise.await } := by
  induction es generalizing writePromise with
  | nil =>
      cases writePromise with
      | fulfilled => rfl
      | pending => rfl
      | rejected reads reason => cases reads <;> rfl
  | cons env rest ih =>
      cases writePromise with
      | fulfilled => simp [readResponseBody, ih, WritePromise.seen]
      | pending => simp [readResponseBody, ih, WritePromise.seen]
      | rejected reads reason =>
          cases reads with
          | zero => rfl
          | succ reads => simp [readResponseBody, ih, WritePromise.seen, WritePromise.await]

theorem await_eq_done {writePromise : WritePromise} :
    writePromise.await = .done ↔ writePromise = .fulfilled := by
  cases writePromise <;> simp [WritePromise.await]

theorem isPrefix_seen (writePromise : WritePromise) (es : List Envelope) :
    writePromise.seen es <+: es := by
  cases writePromise with
  | fulfilled => exact List.prefix_rfl
  | pending => exact List.prefix_rfl
  | rejected reads reason => exact List.take_prefix reads es

/-- Envelopes a waiting reader has not seen: there are none. -/
theorem seen_of_waiting {writePromise : WritePromise} (h : writePromise.await = .waiting)
    (es : List Envelope) : writePromise.seen es = es := by
  cases writePromise with
  | fulfilled => rfl
  | pending => rfl
  | rejected reads reason => cases h

theorem placedMessages_mono {es es' : List Envelope} (h : es <+: es') :
    placedMessages parse es <+: placedMessages parse es' := by
  obtain ⟨more, rfl⟩ := h
  refine List.IsPrefix.filterMap _ ?_
  induction es with
  | nil => exact List.nil_prefix
  | cons env rest ih =>
      by_cases hend : env.flag = flagEnvelopeEndStream
      · simp [hend]
      · simpa [hend] using ih

-- ============================================================================
-- Each loop on its own
-- ============================================================================

/-- What the loop of `iterate` does on any body. -/
theorem iterateLoop_proper (ending : Ending) (es : List Envelope) (t : Headers) :
    (iterateLoop parse endStreamFromJson ending es t).messages <+: placedMessages parse es ∧
    ((iterateLoop parse endStreamFromJson ending es t).ending = .waiting →
      ending = .waiting ∧ ∀ env ∈ es, env.flag ≠ flagEnvelopeEndStream) ∧
    ((iterateLoop parse endStreamFromJson ending es t).ending = .done →
      (∃ env ∈ es, isSuccess parse endStreamFromJson env = true) ∨
        es.dropWhile (isReadable parse endStreamFromJson) = [] ∧ ending = .done) := by
  induction es generalizing t with
  | nil => exact ⟨List.prefix_rfl, fun h => ⟨h, by simp⟩, fun h => Or.inr ⟨rfl, h⟩⟩
  | cons env rest ih =>
      rw [iterateLoop_cons]
      cases hitem : item parse endStreamFromJson env with
      | message m =>
          obtain ⟨hend, hmessage, hparse⟩ := flag_of_message hitem
          obtain ⟨hplaced, hwaiting, hdone⟩ := ih t
          have hhead : placedMessages parse (env :: rest) = m :: placedMessages parse rest := by
            simp [placedMessages, hend, hmessage, hparse, Except.toOption]
          refine ⟨?_, ?_, ?_⟩
          · rw [hhead]
            exact List.cons_prefix_cons.mpr ⟨rfl, hplaced⟩
          · intro h
            obtain ⟨hending, hnone⟩ := hwaiting h
            refine ⟨hending, fun e he => ?_⟩
            rcases List.mem_cons.mp he with rfl | htail
            · exact hend
            · exact hnone e htail
          · intro h
            rcases hdone h with ⟨e, he, hsuccess⟩ | ⟨hall, hending⟩
            · exact Or.inl ⟨e, List.mem_cons_of_mem _ he, hsuccess⟩
            · exact Or.inr ⟨by simp [isReadable, hitem, hall], hending⟩
      | fault reason => exact ⟨List.nil_prefix, fun h => (by cases h), fun h => (by cases h)⟩
      | failure metadata error =>
          exact ⟨List.nil_prefix, fun h => (by cases h), fun h => (by cases h)⟩
      | success metadata =>
          refine ⟨List.nil_prefix, fun h => (by cases h), fun _ => Or.inl ⟨env, ?_, ?_⟩⟩
          · exact List.mem_cons_self
          · simp [isSuccess, hitem]

/-- After an end-stream the WebTransport loop reads on: it ends normally and
    without a further message only if there are only error-free end-streams. -/
theorem parseLoop_received_iff (responseHeaders : Headers) (ending : Ending) (es : List Envelope)
    (t : Headers) :
    (parseLoop parse endStreamFromJson responseHeaders ending es true t).messages = [] ∧
      (parseLoop parse endStreamFromJson responseHeaders ending es true t).ending = .done ↔
    (∀ env ∈ es, isSuccess parse endStreamFromJson env = true) ∧ ending = .done := by
  induction es generalizing t with
  | nil => cases ending <;> simp [parseLoop]
  | cons env rest ih =>
      rw [parseLoop_cons]
      cases hitem : item parse endStreamFromJson env with
      | message m => simp [Decoded.yield, isSuccess, hitem]
      | fault reason => simp [isSuccess, hitem]
      | failure metadata error => simp [isSuccess, hitem]
      | success metadata =>
          have hsuccess : isSuccess parse endStreamFromJson env = true := by
            simp [isSuccess, hitem]
          simp only [ih, List.forall_mem_cons, hsuccess, true_and]

-- ============================================================================
-- The two loops together
-- ============================================================================

theorem alike_done {ending : Ending} : Ending.Alike .done ending ↔ ending = .done := by
  cases ending <;> simp [Ending.Alike]

theorem alike_eq_done {ending : Ending} (h : ending.Alike .done) : ending = .done := by
  cases ending with
  | done => rfl
  | thrown e => cases h
  | waiting => cases h

theorem alike_eq_waiting {ending : Ending} (h : ending.Alike .waiting) : ending = .waiting := by
  cases ending with
  | done => cases h
  | thrown e => cases h
  | waiting => rfl

theorem Ending.Alike.refl (ending : Ending) : ending.Alike ending := by
  cases ending <;> simp [Ending.Alike]

theorem loops_alike_iff (responseHeaders : Headers) (ending : Ending) (es : List Envelope)
    (t t' : Headers) :
    ((iterateLoop parse endStreamFromJson ending es t).messages =
        (parseLoop parse endStreamFromJson responseHeaders ending es false t').messages ∧
      (iterateLoop parse endStreamFromJson ending es t).ending.Alike
        (parseLoop parse endStreamFromJson responseHeaders ending es false t').ending) ↔
    match es.dropWhile (isReadable parse endStreamFromJson) with
    | [] => ending ≠ .done
    | env :: rest =>
        isSuccess parse endStreamFromJson env = true →
          (∀ e ∈ rest, isSuccess parse endStreamFromJson e = true) ∧ ending = .done := by
  induction es with
  | nil => cases ending <;> simp [iterateLoop, parseLoop, Ending.Alike]
  | cons env rest ih =>
      rw [iterateLoop_cons, parseLoop_cons]
      cases hitem : item parse endStreamFromJson env with
      | message m =>
          have hreadable : isReadable parse endStreamFromJson env = true := by
            simp [isReadable, hitem]
          rw [List.dropWhile_cons_of_pos hreadable, ← ih]
          simp [Decoded.yield]
      | fault reason =>
          simp [isReadable, isSuccess, hitem, Ending.Alike.refl]
      | failure metadata error =>
          simp [isReadable, isSuccess, hitem, Ending.Alike, ResponseError.code?]
      | success metadata =>
          have hreadable : ¬ isReadable parse endStreamFromJson env = true := by
            simp [isReadable, hitem]
          have hsuccess : isSuccess parse endStreamFromJson env = true := by
            simp [isSuccess, hitem]
          rw [List.dropWhile_cons_of_neg hreadable]
          have hreceived := @parseLoop_received_iff M parse endStreamFromJson responseHeaders ending
            rest (metadata.entries.foldl (fun t e => t.set e.1 e.2) t')
          simp only [hsuccess, forall_const, alike_done]
          rw [← hreceived, eq_comm]

theorem iterate_eq (writePromise : WritePromise) (es : List Envelope) :
    iterate parse endStreamFromJson writePromise es =
      iterateLoop parse endStreamFromJson writePromise.await (writePromise.seen es) {} := by
  simp only [iterate, readResponseBody_eq]

theorem alike_iff_endsTogether (writePromise : WritePromise) (responseHeaders : Headers)
    (es : List Envelope) :
    ((iterate parse endStreamFromJson writePromise es).messages =
        (parseResponseBody parse endStreamFromJson writePromise responseHeaders es).messages ∧
      (iterate parse endStreamFromJson writePromise es).ending.Alike
        (parseResponseBody parse endStreamFromJson writePromise responseHeaders es).ending) ↔
    EndsTogether parse endStreamFromJson writePromise es := by
  have hloops := @loops_alike_iff M parse endStreamFromJson responseHeaders writePromise.await
    (writePromise.seen es) {} {}
  simp only [ne_eq, await_eq_done] at hloops
  rw [iterate_eq]
  simp only [parseResponseBody, readResponseBody_eq]
  exact hloops

/-- `iterate` is as it should be unless the response ends without an
    end-stream after the request did. -/
theorem iterate_proper {writePromise : WritePromise} {es : List Envelope}
    (htogether : EndsTogether parse endStreamFromJson writePromise es) :
    Proper parse endStreamFromJson es (iterate parse endStreamFromJson writePromise es) := by
  obtain ⟨hplaced, hwaiting, hdone⟩ := @iterateLoop_proper M parse endStreamFromJson
    writePromise.await (writePromise.seen es) {}
  rw [← iterate_eq] at hplaced hwaiting hdone
  have hprefix := isPrefix_seen writePromise es
  refine ⟨fun h => ?_, hplaced.trans (placedMessages_mono hprefix), ?_⟩
  · rcases hdone h with ⟨env, henv, hsuccess⟩ | ⟨hall, hfulfilled⟩
    · exact ⟨env, hprefix.subset henv, hsuccess⟩
    · unfold EndsTogether at htogether
      rw [hall] at htogether
      exact absurd (await_eq_done.mp hfulfilled) htogether
  · rintro ⟨env, henv, hend⟩ hwait
    obtain ⟨hpending, hnone⟩ := hwaiting hwait
    rw [seen_of_waiting hpending] at hnone
    exact hnone env henv hend

/-- What is asked of a loop carries over to one that decodes alike. -/
theorem Proper.of_alike {es : List Envelope} {d d' : Decoded M}
    (hd : Proper parse endStreamFromJson es d) (hmessages : d.messages = d'.messages)
    (hending : d.ending.Alike d'.ending) : Proper parse endStreamFromJson es d' where
  done := fun h => hd.done (alike_eq_done (h ▸ hending))
  placed := hmessages ▸ hd.placed
  settled := fun hend h => hd.settled hend (alike_eq_waiting (h ▸ hending))

end Alike

/-- The two transports decode a response alike, and as they should, exactly
    when it ends the request and the response together. -/
theorem decoded_alike_iff {M : Type*} (parse : Bytes → Except JsError M)
    (endStreamFromJson : Bytes → Except JsError EndStream) (writePromise : WritePromise)
    (responseHeaders : Headers) (es : List Envelope) :
    DecodedAlike parse endStreamFromJson writePromise responseHeaders es ↔
      EndsTogether parse endStreamFromJson writePromise es := by
  have hiff := @alike_iff_endsTogether M parse endStreamFromJson writePromise responseHeaders es
  constructor
  · intro hd
    exact hiff.mp ⟨hd.messages, hd.ending⟩
  · intro htogether
    obtain ⟨hmessages, hending⟩ := hiff.mpr htogether
    have hproper := iterate_proper htogether
    exact ⟨hmessages, hending, hproper, hproper.of_alike hmessages hending⟩

/-- The server ends the RPC while the request iterator has more to come: the
    WebTransport loop waits for it. -/
theorem end_stream_awaits_request :
    ¬ ∀ (parse : Bytes → Except JsError Bytes)
      (endStreamFromJson : Bytes → Except JsError EndStream) (writePromise : WritePromise)
      (responseHeaders : Headers) (es : List Envelope),
      DecodedAlike parse endStreamFromJson writePromise responseHeaders es := by
  intro h
  have hd := h (fun data => .ok data) (fun _ => .ok {}) .pending {}
    [⟨flagEnvelopeEndStream, [123, 125]⟩]
  exact hd.parseResponseBody.settled ⟨_, List.mem_singleton.mpr rfl, rfl⟩ rfl

end Web
end BidiWeb
