/-
  BidiWeb.Web.CompressedResponse

  Compressed envelopes in a response to a browser.  None of the three loops
  that decode one has a decompressor, and each treats the flag as that of a
  data envelope: the two of `ResponseBody` and the `unary` of
  `connect-webtransport-transport.ts`.
-/

import BidiWeb.Web.ResponseBody

namespace BidiWeb
namespace Web

open BidiWeb.Lib
open BidiWeb.Core (JsError Code)

-- ============================================================================
-- The unary loop
-- ============================================================================

def multipleMessages : JsError :=
  .connectError "unary stream has multiple messages" Code.unimplemented

def noMessage : JsError := .connectError "unary stream has no message" Code.unimplemented

/-- How a unary call stands. -/
inductive UnaryCall (M : Type*) where
  | response (message : M) (trailer : Headers)
  | thrown (error : ResponseError)
  | waiting

/-- The call has returned a response. -/
def UnaryCall.completes {M : Type*} : UnaryCall M → Bool
  | .response _ _ => true
  | .thrown _ | .waiting => false

def UnaryCall.throws {M : Type*} : UnaryCall M → Bool
  | .thrown _ => true
  | .response _ _ | .waiting => false

def UnaryCall.waits {M : Type*} : UnaryCall M → Bool
  | .waiting => true
  | .thrown _ | .response _ _ => false

section Unary

variable {M : Type*} (parse : Bytes → Except JsError M)
  (endStreamFromJson : Bytes → Except JsError EndStream)

/-- The loop of `unary()` of the WebTransport transport, and what follows it. -/
def unaryLoop (responseHeaders : Headers) (ending : Ending) :
    List Envelope → Option Bytes → Bool → Headers → UnaryCall M
  | [], responseMessage, endStreamReceived, trailer =>
      match ending with
      | .thrown error => .thrown error
      | .waiting => .waiting
      | .done =>
          if endStreamReceived then
            match responseMessage with
            | none => .thrown { reason := noMessage }
            | some data =>
                match parse data with
                | .error reason => .thrown { reason }
                | .ok message => .response message trailer
          else .thrown { reason := missingEndStream }
  | env :: rest, responseMessage, endStreamReceived, trailer =>
      if env.flag = flagEnvelopeData ∨ env.flag = flagEnvelopeCompressed then
        match responseMessage with
        | some _ => .thrown { reason := multipleMessages }
        | none =>
            unaryLoop responseHeaders ending rest (some env.payload) endStreamReceived trailer
      else if env.flag = flagEnvelopeEndStream then
        match endStreamFromJson env.payload with
        | .error reason => .thrown { reason }
        | .ok { metadata, error } =>
            match error with
            | some error =>
                let errorMetadata := responseHeaders.entries.foldl
                  (fun t e => t.append e.1 e.2) error.metadata
                .thrown { error with metadata := errorMetadata }
            | none =>
                unaryLoop responseHeaders ending rest responseMessage true
                  (metadata.entries.foldl (fun t e => t.set e.1 e.2) trailer)
      else .thrown { reason := unexpectedFlag env.flag }

/-- The response of `unary()` over `readResponseBody()`. -/
def unary (writePromise : WritePromise) (responseHeaders : Headers) (envelopes : List Envelope) :
    UnaryCall M :=
  let body := readResponseBody writePromise envelopes
  unaryLoop parse endStreamFromJson responseHeaders body.ending body.envelopes none false {}

end Unary

-- ============================================================================
-- What is parsed
-- ============================================================================

section Parsed

variable {M : Type*} (parse : Bytes → Except JsError M)
  (endStreamFromJson : Bytes → Except JsError EndStream)

/-- The envelopes whose data a streaming loop hands to `parse`; it goes on
    after those that it skips, and after a message that has been parsed. -/
def streamParsed (skips : Envelope → Bool) : List Envelope → List Envelope
  | [] => []
  | env :: rest =>
      if env.isMessage then
        match parse env.payload with
        | .error _ => [env]
        | .ok _ => env :: streamParsed skips rest
      else if skips env then streamParsed skips rest
      else []

/-- Those of `iterate`, which stops at an end-stream. -/
def iterateParsed (es : List Envelope) : List Envelope := streamParsed parse (fun _ => false) es

/-- Those of `parseResponseBody`, which reads on behind one without an error. -/
def responseBodyParsed (es : List Envelope) : List Envelope :=
  streamParsed parse (isSuccess parse endStreamFromJson) es

/-- The envelope whose data `unary` hands to `parse`; `responseMessage` is the
    one that it has kept. -/
def unaryParsed (ending : Ending) : List Envelope → Option Envelope → Bool → List Envelope
  | [], responseMessage, endStreamReceived =>
      if ending = .done ∧ endStreamReceived then responseMessage.toList else []
  | env :: rest, responseMessage, endStreamReceived =>
      if env.isMessage then
        match responseMessage with
        | some _ => []
        | none => unaryParsed ending rest (some env) endStreamReceived
      else if isSuccess parse endStreamFromJson env then
        unaryParsed ending rest responseMessage true
      else []

variable {parse endStreamFromJson}

theorem item_of_isMessage {env : Envelope} (h : env.isMessage = true) :
    item parse endStreamFromJson env =
      match parse env.payload with
      | .error reason => .fault reason
      | .ok m => .message m := by
  have hend : env.flag ≠ flagEnvelopeEndStream := by
    rintro hflag
    rw [not_isMessage_endStream hflag] at h
    cases h
  exact (if_neg hend).trans (if_pos h)

/-- What becomes of an envelope that is no message does not depend on `parse`. -/
theorem item_of_not_isMessage (parse' : Bytes → Except JsError M) {env : Envelope}
    (h : env.isMessage = false) :
    item parse endStreamFromJson env = item parse' endStreamFromJson env := by
  unfold item
  rw [h]
  rfl

theorem not_message_of_not_isMessage {env : Envelope} (h : env.isMessage = false) (m : M) :
    item parse endStreamFromJson env ≠ .message m := by
  intro hitem
  have htrue := (flag_of_message hitem).2.1
  rw [h] at htrue
  cases htrue

/-- What a streaming loop parses first, and then. -/
theorem streamParsed_cons (skips : Envelope → Bool) (env : Envelope) (rest : List Envelope) :
    streamParsed parse skips (env :: rest) =
      match env.isMessage, parse env.payload with
      | true, .error _ => [env]
      | true, .ok _ => env :: streamParsed parse skips rest
      | false, _ => if skips env then streamParsed parse skips rest else [] := by
  rw [streamParsed]
  cases env.isMessage with
  | false => rfl
  | true => cases parse env.payload <;> rfl

/-- `iterate` asks `parse` for nothing but these envelopes. -/
theorem iterateLoop_congr {parse' : Bytes → Except JsError M} (ending : Ending)
    (es : List Envelope) (t : Headers)
    (h : ∀ env ∈ iterateParsed parse es, parse env.payload = parse' env.payload) :
    iterateLoop parse endStreamFromJson ending es t =
      iterateLoop parse' endStreamFromJson ending es t := by
  induction es with
  | nil => rfl
  | cons env rest ih =>
      rw [iterateParsed, streamParsed_cons] at h
      rw [iterateLoop_cons, iterateLoop_cons]
      cases hmessage : env.isMessage with
      | false =>
          rw [← item_of_not_isMessage parse' hmessage]
          cases hitem : item parse endStreamFromJson env with
          | message m => exact absurd hitem (not_message_of_not_isMessage hmessage m)
          | fault reason => rfl
          | failure metadata error => rfl
          | success metadata => rfl
      | true =>
          rw [hmessage] at h
          rw [item_of_isMessage hmessage, item_of_isMessage hmessage]
          cases hparse : parse env.payload with
          | error reason =>
              rw [hparse] at h
              rw [← h env (List.mem_singleton_self env), hparse]
          | ok m =>
              rw [hparse] at h
              rw [← h env List.mem_cons_self, hparse]
              simp only
              rw [ih fun env' henv' => h env' (List.mem_cons_of_mem env henv')]

/-- Nor does `parseResponseBody`. -/
theorem parseLoop_congr {parse' : Bytes → Except JsError M} (responseHeaders : Headers)
    (ending : Ending) (es : List Envelope) (received : Bool) (t : Headers)
    (h : ∀ env ∈ responseBodyParsed parse endStreamFromJson es,
      parse env.payload = parse' env.payload) :
    parseLoop parse endStreamFromJson responseHeaders ending es received t =
      parseLoop parse' endStreamFromJson responseHeaders ending es received t := by
  induction es generalizing received t with
  | nil => rfl
  | cons env rest ih =>
      rw [responseBodyParsed, streamParsed_cons] at h
      rw [parseLoop_cons, parseLoop_cons]
      cases hmessage : env.isMessage with
      | false =>
          rw [hmessage] at h
          rw [← item_of_not_isMessage parse' hmessage]
          cases hitem : item parse endStreamFromJson env with
          | message m => exact absurd hitem (not_message_of_not_isMessage hmessage m)
          | fault reason => rfl
          | failure metadata error => rfl
          | success metadata =>
              have hsuccess : isSuccess parse endStreamFromJson env = true := by
                simp [isSuccess, hitem]
              simp only [hsuccess, if_true] at h
              exact ih _ _ h
      | true =>
          rw [hmessage] at h
          rw [item_of_isMessage hmessage, item_of_isMessage hmessage]
          cases hparse : parse env.payload with
          | error reason =>
              rw [hparse] at h
              rw [← h env (List.mem_singleton_self env), hparse]
          | ok m =>
              rw [hparse] at h
              rw [← h env List.mem_cons_self, hparse]
              simp only
              rw [ih _ _ fun env' henv' => h env' (List.mem_cons_of_mem env henv')]

/-- What is parsed is yielded, up to a message that does not parse. -/
theorem iterateLoop_messages (ending : Ending) (es : List Envelope) (t : Headers) :
    (iterateLoop parse endStreamFromJson ending es t).messages =
      (iterateParsed parse es).filterMap fun env => (parse env.payload).toOption := by
  induction es with
  | nil => rfl
  | cons env rest ih =>
      rw [iterateParsed, streamParsed_cons, iterateLoop_cons]
      cases hmessage : env.isMessage with
      | false =>
          cases hitem : item parse endStreamFromJson env with
          | message m => exact absurd hitem (not_message_of_not_isMessage hmessage m)
          | fault reason => rfl
          | failure metadata error => rfl
          | success metadata => rfl
      | true =>
          rw [item_of_isMessage hmessage]
          cases hparse : parse env.payload with
          | error reason => simp [hparse, Except.toOption]
          | ok m => simpa [hparse, Except.toOption, Decoded.yield, iterateParsed] using ih

theorem parseLoop_messages (responseHeaders : Headers) (ending : Ending) (es : List Envelope)
    (received : Bool) (t : Headers) :
    (parseLoop parse endStreamFromJson responseHeaders ending es received t).messages =
      (responseBodyParsed parse endStreamFromJson es).filterMap fun env =>
        (parse env.payload).toOption := by
  induction es generalizing received t with
  | nil => cases ending <;> cases received <;> rfl
  | cons env rest ih =>
      rw [responseBodyParsed, streamParsed_cons, parseLoop_cons]
      cases hmessage : env.isMessage with
      | false =>
          cases hitem : item parse endStreamFromJson env with
          | message m => exact absurd hitem (not_message_of_not_isMessage hmessage m)
          | fault reason => simp [isSuccess, hitem]
          | failure metadata error => simp [isSuccess, hitem]
          | success metadata =>
              simp only [isSuccess, hitem, if_true]
              exact ih _ _
      | true =>
          rw [item_of_isMessage hmessage]
          cases hparse : parse env.payload with
          | error reason => simp [hparse, Except.toOption]
          | ok m =>
              simpa [hparse, Except.toOption, Decoded.yield, responseBodyParsed] using ih received t

/-- What one envelope does to the loop of `unary`. -/
theorem unaryLoop_cons (responseHeaders : Headers) (ending : Ending) (env : Envelope)
    (rest : List Envelope) (responseMessage : Option Bytes) (received : Bool) (t : Headers) :
    unaryLoop parse endStreamFromJson responseHeaders ending (env :: rest) responseMessage received
        t =
      if env.isMessage then
        match responseMessage with
        | some _ => .thrown { reason := multipleMessages }
        | none =>
            unaryLoop parse endStreamFromJson responseHeaders ending rest
              (some env.payload) received
              t
      else
        match item parse endStreamFromJson env with
        | .message _ => .waiting
        | .fault reason => .thrown { reason }
        | .failure _ error =>
            .thrown { error with
              metadata := responseHeaders.entries.foldl (fun t e => t.append e.1 e.2)
                error.metadata }
        | .success metadata =>
            unaryLoop parse endStreamFromJson responseHeaders ending rest responseMessage true
              (metadata.entries.foldl (fun t e => t.set e.1 e.2) t) := by
  conv_lhs => rw [unaryLoop.eq_def]
  simp only
  cases hmessage : env.isMessage with
  | true =>
      rw [if_pos (Envelope.isMessage_iff.mp hmessage), if_pos rfl]
  | false =>
      have hnot : ¬ (env.flag = flagEnvelopeData ∨ env.flag = flagEnvelopeCompressed) := by
        intro hflag
        rw [Envelope.isMessage_iff.mpr hflag] at hmessage
        cases hmessage
      rw [if_neg hnot, if_neg Bool.false_ne_true, item, hmessage]
      by_cases hend : env.flag = flagEnvelopeEndStream
      · rw [if_pos hend, if_pos hend]
        cases endStreamFromJson env.payload with
        | error reason => rfl
        | ok e =>
            obtain ⟨metadata, error⟩ := e
            cases error <;> rfl
      · rw [if_neg hend, if_neg hend]
        rfl

theorem unaryLoop_congr {parse' : Bytes → Except JsError M} (responseHeaders : Headers)
    (ending : Ending) (es : List Envelope) (kept : Option Envelope) (received : Bool) (t : Headers)
    (h : ∀ env ∈ unaryParsed parse endStreamFromJson ending es kept received,
      parse env.payload = parse' env.payload) :
    unaryLoop parse endStreamFromJson responseHeaders ending es (kept.map (·.payload)) received t =
      unaryLoop parse' endStreamFromJson responseHeaders ending es (kept.map (·.payload)) received
        t := by
  induction es generalizing kept received t with
  | nil =>
      rw [unaryLoop.eq_def, unaryLoop.eq_def]
      cases ending with
      | thrown error => rfl
      | waiting => rfl
      | done =>
          cases received with
          | false => rfl
          | true =>
              cases kept with
              | none => rfl
              | some env =>
                  have hsame := h env (List.mem_singleton_self env)
                  simp only [Option.map_some, if_true]
                  rw [hsame]
  | cons env rest ih =>
      rw [unaryParsed.eq_def] at h
      simp only at h
      rw [unaryLoop_cons, unaryLoop_cons]
      cases hmessage : env.isMessage with
      | true =>
          rw [hmessage, if_pos rfl] at h
          rw [if_pos rfl, if_pos rfl]
          cases kept with
          | some _ => rfl
          | none => exact ih (some env) received t h
      | false =>
          rw [hmessage, if_neg Bool.false_ne_true] at h
          rw [if_neg Bool.false_ne_true, if_neg Bool.false_ne_true,
            ← item_of_not_isMessage parse' hmessage]
          cases hitem : item parse endStreamFromJson env with
          | message m => rfl
          | fault reason => rfl
          | failure metadata error => rfl
          | success metadata =>
              have hsuccess : isSuccess parse endStreamFromJson env = true := by
                simp [isSuccess, hitem]
              rw [if_pos hsuccess] at h
              exact ih kept true _ h

-- ============================================================================
-- Where a compressed envelope gets
-- ============================================================================

variable (parse endStreamFromJson)

/-- Only such envelopes as a loop passes are before `env`. -/
def Reached (passes : Envelope → Bool) (es : List Envelope) (env : Envelope) : Prop :=
  ∃ front rest, es = front ++ env :: rest ∧ ∀ e ∈ front, passes e = true

/-- No compressed envelope is reached. -/
def Uncompressed (passes : Envelope → Bool) (es : List Envelope) : Prop :=
  ∀ env, Reached passes es env → env.flag ≠ flagEnvelopeCompressed

/-- `parseResponseBody` goes on after a message and after an error-free
    end-stream. -/
def isPassed (env : Envelope) : Bool :=
  isReadable parse endStreamFromJson env || isSuccess parse endStreamFromJson env

/-- All that is read is `env` and error-free end-streams, and either the
    request is still being written or there is an end-stream. -/
def Alone (ending : Ending) (es : List Envelope) (env : Envelope) : Prop :=
  ∃ front rest, es = front ++ env :: rest ∧
    (∀ e ∈ front ++ rest, isSuccess parse endStreamFromJson e = true) ∧
    (ending = .waiting ∨ ending = .done ∧ front ++ rest ≠ [])

/-- Of the envelopes read only uncompressed ones are parsed, and a call that
    has reached a compressed one throws. -/
structure RefusesCompressed (parsed es : List Envelope) (waits : List Envelope → Prop)
    (throws : Prop) : Prop where
  parsed : ∀ env ∈ parsed, env.flag = flagEnvelopeData
  ended : ∀ front env rest, es = front ++ env :: rest → env.flag = flagEnvelopeCompressed →
    waits front → throws

variable {parse endStreamFromJson}

theorem isReadable_iff {env : Envelope} :
    isReadable parse endStreamFromJson env = true ↔
      env.isMessage = true ∧ ∃ m, parse env.payload = .ok m := by
  unfold isReadable
  cases hmessage : env.isMessage with
  | true =>
      rw [item_of_isMessage hmessage]
      cases parse env.payload with
      | error reason => simp
      | ok m => simp
  | false =>
      cases hitem : item parse endStreamFromJson env with
      | message m => exact absurd hitem (not_message_of_not_isMessage hmessage m)
      | fault reason => simp
      | failure metadata error => simp
      | success metadata => simp

theorem not_isMessage_of_isSuccess {env : Envelope}
    (h : isSuccess parse endStreamFromJson env = true) : env.isMessage = false := by
  cases hmessage : env.isMessage with
  | false => rfl
  | true =>
      rw [isSuccess, item_of_isMessage hmessage] at h
      cases hparse : parse env.payload with
      | error reason =>
          rw [hparse] at h
          cases h
      | ok m =>
          rw [hparse] at h
          cases h

theorem reached_cons {passes : Envelope → Bool} {e : Envelope} {es : List Envelope}
    {env : Envelope} :
    Reached passes (e :: es) env ↔ e = env ∨ passes e = true ∧ Reached passes es env := by
  constructor
  · rintro ⟨front, rest, heq, hfront⟩
    cases front with
    | nil => exact Or.inl (List.cons.inj heq).1
    | cons x front =>
        obtain ⟨rfl, rfl⟩ := List.cons.inj heq
        exact Or.inr ⟨hfront e List.mem_cons_self, front, rest, rfl,
          fun y hy => hfront y (List.mem_cons_of_mem e hy)⟩
  · rintro (rfl | ⟨he, front, rest, rfl, hfront⟩)
    · exact ⟨[], es, rfl, fun x hx => by cases hx⟩
    · refine ⟨e :: front, rest, rfl, fun x hx => ?_⟩
      rcases List.mem_cons.mp hx with rfl | hx
      · exact he
      · exact hfront x hx

/-- A message is parsed if the loop gets to it. -/
theorem mem_streamParsed {skips passes : Envelope → Bool}
    (hskips : ∀ e, e.isMessage = false → passes e = skips e)
    (hpasses : ∀ e, e.isMessage = true → passes e = (parse e.payload).toBool) {es : List Envelope}
    {env : Envelope} :
    env ∈ streamParsed parse skips es ↔ env.isMessage = true ∧ Reached passes es env := by
  induction es with
  | nil => simp [streamParsed, Reached]
  | cons e es ih =>
      rw [streamParsed_cons, reached_cons]
      cases hmessage : e.isMessage with
      | true =>
          rw [hpasses e hmessage]
          cases hparse : parse e.payload with
          | error reason =>
              simp only [List.mem_singleton, Except.toBool, Bool.false_eq_true, false_and, or_false]
              constructor
              · rintro rfl
                exact ⟨hmessage, rfl⟩
              · exact fun h => h.2.symm
          | ok m =>
              simp only [List.mem_cons, Except.toBool, true_and]
              rw [ih]
              constructor
              · rintro (rfl | ⟨henv, hrest⟩)
                · exact ⟨hmessage, Or.inl rfl⟩
                · exact ⟨henv, Or.inr hrest⟩
              · rintro ⟨henv, rfl | hrest⟩
                · exact Or.inl rfl
                · exact Or.inr ⟨henv, hrest⟩
      | false =>
          have hother : env.isMessage = true → e ≠ env := by
            rintro henv rfl
            rw [hmessage] at henv
            cases henv
          rw [hskips e hmessage]
          cases skips e with
          | false =>
              simp only [Bool.false_eq_true, if_false, List.not_mem_nil, false_and, or_false,
                false_iff]
              exact fun h => hother h.1 h.2
          | true =>
              simp only [if_true, true_and]
              rw [ih]
              constructor
              · exact fun ⟨henv, hrest⟩ => ⟨henv, Or.inr hrest⟩
              · exact fun ⟨henv, hor⟩ => ⟨henv, hor.resolve_left (hother henv)⟩

theorem mem_iterateParsed {es : List Envelope} {env : Envelope} :
    env ∈ iterateParsed parse es ↔
      env.isMessage = true ∧ Reached (isReadable parse endStreamFromJson) es env := by
  apply mem_streamParsed
  · intro e hmessage
    rw [Bool.eq_false_iff, ne_eq, isReadable_iff, hmessage]
    simp
  · intro e hmessage
    rw [isReadable, item_of_isMessage hmessage]
    cases parse e.payload <;> rfl

theorem mem_responseBodyParsed {es : List Envelope} {env : Envelope} :
    env ∈ responseBodyParsed parse endStreamFromJson es ↔
      env.isMessage = true ∧ Reached (isPassed parse endStreamFromJson) es env := by
  apply mem_streamParsed
  · intro e hmessage
    have hreadable : isReadable parse endStreamFromJson e = false := by
      rw [Bool.eq_false_iff, ne_eq, isReadable_iff, hmessage]
      simp
    rw [isPassed, hreadable, Bool.false_or]
  · intro e hmessage
    rw [isPassed, isReadable, isSuccess, item_of_isMessage hmessage]
    cases parse e.payload <;> rfl

/-- A loop that parses what it reaches refuses compressed envelopes only if it
    reaches none. -/
theorem refuses_iff_uncompressed {passes : Envelope → Bool} {parsed es : List Envelope}
    {waits : List Envelope → Prop} {throws : Prop}
    (hparsed : ∀ env, env ∈ parsed ↔ env.isMessage = true ∧ Reached passes es env)
    (hwaits : ∀ front, waits front → ∀ e ∈ front, passes e = true) :
    RefusesCompressed parsed es waits throws ↔ Uncompressed passes es := by
  constructor
  · intro hrefuses env hreached hcompressed
    have hmem := (hparsed env).mpr ⟨Envelope.isMessage_iff.mpr (Or.inr hcompressed), hreached⟩
    have hdata := hrefuses.parsed env hmem
    rw [hcompressed] at hdata
    revert hdata
    decide
  · intro huncompressed
    refine ⟨fun env hmem => ?_, fun front env rest heq hcompressed hfront => ?_⟩
    · obtain ⟨hmessage, hreached⟩ := (hparsed env).mp hmem
      exact (Envelope.isMessage_iff.mp hmessage).resolve_right (huncompressed env hreached)
    · exact absurd hcompressed
        (huncompressed env ⟨front, rest, heq, hwaits front hfront⟩)

/-- A loop that waits for more has passed all it has read. -/
theorem readable_of_iterateLoop_waiting {es : List Envelope} {t : Headers}
    (h : (iterateLoop parse endStreamFromJson .waiting es t).ending = .waiting) :
    ∀ e ∈ es, isReadable parse endStreamFromJson e = true := by
  induction es with
  | nil => exact fun e he => by cases he
  | cons env rest ih =>
      rw [iterateLoop_cons] at h
      cases hitem : item parse endStreamFromJson env with
      | message m =>
          rw [hitem] at h
          have hreadable : isReadable parse endStreamFromJson env = true := by
            simp [isReadable, hitem]
          exact List.forall_mem_cons.mpr ⟨hreadable, ih h⟩
      | fault reason =>
          rw [hitem] at h
          cases h
      | failure metadata error =>
          rw [hitem] at h
          cases h
      | success metadata =>
          rw [hitem] at h
          cases h

theorem passed_of_parseLoop_waiting {responseHeaders : Headers} {es : List Envelope}
    {received : Bool} {t : Headers}
    (h : (parseLoop parse endStreamFromJson responseHeaders .waiting es received t).ending =
      .waiting) :
    ∀ e ∈ es, isPassed parse endStreamFromJson e = true := by
  induction es generalizing received t with
  | nil => exact fun e he => by cases he
  | cons env rest ih =>
      rw [parseLoop_cons] at h
      cases hitem : item parse endStreamFromJson env with
      | message m =>
          rw [hitem] at h
          have hpassed : isPassed parse endStreamFromJson env = true := by
            simp [isPassed, isReadable, hitem]
          exact List.forall_mem_cons.mpr ⟨hpassed, ih h⟩
      | fault reason =>
          rw [hitem] at h
          cases h
      | failure metadata error =>
          rw [hitem] at h
          cases h
      | success metadata =>
          rw [hitem] at h
          have hpassed : isPassed parse endStreamFromJson env = true := by
            simp [isPassed, isSuccess, hitem]
          exact List.forall_mem_cons.mpr ⟨hpassed, ih h⟩

theorem unaryParsed_cons (ending : Ending) (env : Envelope) (rest : List Envelope)
    (kept : Option Envelope) (received : Bool) :
    unaryParsed parse endStreamFromJson ending (env :: rest) kept received =
      if env.isMessage then
        match kept with
        | some _ => []
        | none => unaryParsed parse endStreamFromJson ending rest (some env) received
      else if isSuccess parse endStreamFromJson env then
        unaryParsed parse endStreamFromJson ending rest kept true
      else [] := by
  rw [unaryParsed.eq_def]

/-- A message that has been kept is parsed if only error-free end-streams
    follow, and there has been one. -/
theorem mem_unaryParsed_some {ending : Ending} {es : List Envelope} {kept env : Envelope}
    {received : Bool} :
    env ∈ unaryParsed parse endStreamFromJson ending es (some kept) received ↔
      env = kept ∧ ending = .done ∧ (received = true ∨ es ≠ []) ∧
        ∀ e ∈ es, isSuccess parse endStreamFromJson e = true := by
  induction es generalizing received with
  | nil =>
      rw [unaryParsed.eq_def]
      by_cases hdone : ending = .done ∧ received = true
      · simp [hdone]
      · simp only [if_neg hdone, List.not_mem_nil, false_iff]
        rintro ⟨-, hending, hor, -⟩
        exact hdone ⟨hending, hor.resolve_right fun hne => hne rfl⟩
  | cons e es ih =>
      rw [unaryParsed_cons]
      cases hmessage : e.isMessage with
      | true =>
          simp only [if_true, List.not_mem_nil, false_iff]
          rintro ⟨-, -, -, hall⟩
          rw [not_isMessage_of_isSuccess (hall e List.mem_cons_self)] at hmessage
          cases hmessage
      | false =>
          cases hsuccess : isSuccess parse endStreamFromJson e with
          | false => simp [hsuccess]
          | true =>
              rw [if_neg Bool.false_ne_true, if_pos rfl, ih]
              simp [hsuccess]

theorem mem_unaryParsed_none {ending : Ending} {es : List Envelope} {env : Envelope}
    {received : Bool} :
    env ∈ unaryParsed parse endStreamFromJson ending es none received ↔
      ending = .done ∧ env.isMessage = true ∧ ∃ front rest, es = front ++ env :: rest ∧
        (∀ e ∈ front ++ rest, isSuccess parse endStreamFromJson e = true) ∧
          (received = true ∨ front ++ rest ≠ []) := by
  induction es generalizing received with
  | nil =>
      rw [unaryParsed.eq_def]
      simp
  | cons e es ih =>
      rw [unaryParsed_cons]
      cases hmessage : e.isMessage with
      | true =>
          rw [if_pos rfl]
          simp only
          rw [mem_unaryParsed_some]
          constructor
          · rintro ⟨rfl, hending, hor, hall⟩
            exact ⟨hending, hmessage, [], es, rfl, hall, hor⟩
          · rintro ⟨hending, henv, front, rest, heq, hall, hor⟩
            cases front with
            | nil =>
                obtain ⟨rfl, rfl⟩ := List.cons.inj heq
                exact ⟨rfl, hending, hor, hall⟩
            | cons x front =>
                obtain ⟨rfl, -⟩ := List.cons.inj heq
                rw [not_isMessage_of_isSuccess (hall e List.mem_cons_self)] at hmessage
                cases hmessage
      | false =>
          rw [if_neg Bool.false_ne_true]
          cases hsuccess : isSuccess parse endStreamFromJson e with
          | true =>
              rw [if_pos rfl, ih]
              constructor
              · rintro ⟨hending, henv, front, rest, rfl, hall, -⟩
                refine ⟨hending, henv, e :: front, rest, rfl, fun x hx => ?_, Or.inr (by simp)⟩
                rcases List.mem_cons.mp hx with rfl | hx
                · exact hsuccess
                · exact hall x hx
              · rintro ⟨hending, henv, front, rest, heq, hall, -⟩
                cases front with
                | nil =>
                    obtain ⟨rfl, -⟩ := List.cons.inj heq
                    rw [hmessage] at henv
                    cases henv
                | cons x front =>
                    obtain ⟨-, rfl⟩ := List.cons.inj heq
                    exact ⟨hending, henv, front, rest, rfl,
                      fun y hy => hall y (List.mem_cons_of_mem x hy), Or.inl rfl⟩
          | false =>
              rw [if_neg Bool.false_ne_true]
              simp only [List.not_mem_nil, false_iff]
              rintro ⟨-, henv, front, rest, heq, hall, -⟩
              cases front with
              | nil =>
                  obtain ⟨rfl, -⟩ := List.cons.inj heq
                  rw [hmessage] at henv
                  cases henv
              | cons x front =>
                  obtain ⟨rfl, -⟩ := List.cons.inj heq
                  rw [hall e List.mem_cons_self] at hsuccess
                  cases hsuccess

/-- A unary call completes only with a message that has been parsed. -/
theorem parsed_of_completes {responseHeaders : Headers} {ending : Ending} {es : List Envelope}
    {kept : Option Envelope} {received : Bool} {t : Headers}
    (h : (unaryLoop parse endStreamFromJson responseHeaders ending es (kept.map (·.payload))
      received t).completes = true) :
    ∃ env, env ∈ unaryParsed parse endStreamFromJson ending es kept received := by
  induction es generalizing kept received t with
  | nil =>
      rw [unaryLoop.eq_def] at h
      cases ending with
      | thrown error => cases h
      | waiting => cases h
      | done =>
          cases received with
          | false => cases h
          | true =>
              cases kept with
              | none => cases h
              | some env => exact ⟨env, List.mem_singleton_self env⟩
  | cons env rest ih =>
      rw [unaryLoop_cons] at h
      rw [unaryParsed_cons]
      cases hmessage : env.isMessage with
      | true =>
          rw [hmessage, if_pos rfl] at h
          cases kept with
          | some _ => cases h
          | none => exact @ih (some env) received t h
      | false =>
          rw [hmessage, if_neg Bool.false_ne_true] at h
          cases hitem : item parse endStreamFromJson env with
          | message m => exact absurd hitem (not_message_of_not_isMessage hmessage m)
          | fault reason =>
              rw [hitem] at h
              cases h
          | failure metadata error =>
              rw [hitem] at h
              cases h
          | success metadata =>
              rw [hitem] at h
              have hsuccess : isSuccess parse endStreamFromJson env = true := by
                simp [isSuccess, hitem]
              rw [if_neg Bool.false_ne_true, if_pos hsuccess]
              exact ih h

/-- A unary call waits for its request behind error-free end-streams and at
    most one message. -/
theorem unaryLoop_waits_iff {responseHeaders : Headers} {ending : Ending} {es : List Envelope}
    {kept : Option Bytes} {received : Bool} {t : Headers} :
    (unaryLoop parse endStreamFromJson responseHeaders ending es kept received t).waits = true ↔
      ending = .waiting ∧
        (∀ e ∈ es, e.isMessage = true ∨ isSuccess parse endStreamFromJson e = true) ∧
        es.countP Envelope.isMessage + kept.toList.length ≤ 1 := by
  induction es generalizing kept received t with
  | nil =>
      have hkept : kept.toList.length ≤ 1 := by cases kept <;> simp
      rw [unaryLoop.eq_def]
      cases ending with
      | thrown error => simp [UnaryCall.waits]
      | waiting => simp [UnaryCall.waits, hkept]
      | done =>
          cases received with
          | false => simp [UnaryCall.waits]
          | true =>
              cases kept with
              | none => simp [UnaryCall.waits]
              | some data => cases hparse : parse data <;> simp [UnaryCall.waits, hparse]
  | cons env rest ih =>
      rw [unaryLoop_cons, List.forall_mem_cons, List.countP_cons]
      cases hmessage : env.isMessage with
      | true =>
          cases kept with
          | some data => simp [UnaryCall.waits]
          | none => simp [ih]
      | false =>
          rw [if_neg Bool.false_ne_true]
          cases hitem : item parse endStreamFromJson env with
          | message m => exact absurd hitem (not_message_of_not_isMessage hmessage m)
          | fault reason => simp [UnaryCall.waits, isSuccess, hitem]
          | failure metadata error => simp [UnaryCall.waits, isSuccess, hitem]
          | success metadata => simp [ih, isSuccess, hitem]

theorem UnaryCall.throws_of_not {call : UnaryCall M} (hcompletes : call.completes ≠ true)
    (hwaits : call.waits ≠ true) : call.throws = true := by
  cases call with
  | response message trailer => exact absurd rfl hcompletes
  | thrown error => rfl
  | waiting => exact absurd rfl hwaits

/-- No message is among error-free end-streams. -/
theorem countP_of_isSuccess {es : List Envelope}
    (hall : ∀ e ∈ es, isSuccess parse endStreamFromJson e = true) :
    es.countP Envelope.isMessage = 0 := by
  refine List.countP_eq_zero.mpr fun e he => ?_
  rw [not_isMessage_of_isSuccess (hall e he)]
  exact Bool.false_ne_true

theorem countP_of_alone {front rest : List Envelope} {env : Envelope}
    (henv : env.isMessage = true) :
    (front ++ env :: rest).countP Envelope.isMessage =
      (front ++ rest).countP Envelope.isMessage + 1 := by
  rw [List.countP_append, List.countP_cons, henv, List.countP_append]
  simp only [if_true]
  omega

/-- `unary` throws behind a compressed message unless that is all it reads but
    for error-free end-streams. -/
theorem unary_refuses_iff {responseHeaders : Headers} {ending : Ending} {es : List Envelope} :
    RefusesCompressed (unaryParsed parse endStreamFromJson ending es none false) es
        (fun front => (unaryLoop parse endStreamFromJson responseHeaders .waiting front none false
          {}).waits = true)
        ((unaryLoop parse endStreamFromJson responseHeaders ending es none false {}).throws =
          true) ↔
      ∀ env, Alone parse endStreamFromJson ending es env → env.flag ≠ flagEnvelopeCompressed := by
  constructor
  · rintro hrefuses env ⟨front, rest, heq, hall, hending⟩ hcompressed
    have hmessage : env.isMessage = true := Envelope.isMessage_iff.mpr (Or.inr hcompressed)
    rcases hending with hwaiting | ⟨hdone, hne⟩
    · -- the call waits for the request, with the compressed message kept
      have hfront : (unaryLoop parse endStreamFromJson responseHeaders .waiting front none false
          {}).waits = true := by
        have hsuccess : ∀ e ∈ front, isSuccess parse endStreamFromJson e = true := fun e he =>
          hall e (List.mem_append_left rest he)
        refine unaryLoop_waits_iff.mpr ⟨rfl, fun e he => Or.inr (hsuccess e he), ?_⟩
        simp [countP_of_isSuccess hsuccess]
      have hwaits : (unaryLoop parse endStreamFromJson responseHeaders ending es none false
          {}).waits = true := by
        refine unaryLoop_waits_iff.mpr ⟨hwaiting, fun e he => ?_, ?_⟩
        · rw [heq] at he
          rcases List.mem_append.mp he with he | he
          · exact Or.inr (hall e (List.mem_append_left rest he))
          · rcases List.mem_cons.mp he with rfl | he
            · exact Or.inl hmessage
            · exact Or.inr (hall e (List.mem_append_right front he))
        · rw [heq, countP_of_alone hmessage, countP_of_isSuccess hall]
          simp
      have hthrows := hrefuses.ended front env rest heq hcompressed hfront
      generalize unaryLoop parse endStreamFromJson responseHeaders ending es none false {} = call
        at hwaits hthrows
      cases call with
      | response message trailer => cases hwaits
      | thrown error => cases hwaits
      | waiting => cases hthrows
    · have hmem : env ∈ unaryParsed parse endStreamFromJson ending es none false :=
        mem_unaryParsed_none.mpr ⟨hdone, hmessage, front, rest, heq, hall, Or.inr hne⟩
      have hdata := hrefuses.parsed env hmem
      rw [hcompressed] at hdata
      revert hdata
      decide
  · intro halone
    have hparsed : ∀ env ∈ unaryParsed parse endStreamFromJson ending es none false,
        env.flag = flagEnvelopeData := by
      intro env hmem
      obtain ⟨hending, hmessage, front, rest, heq, hall, hor⟩ := mem_unaryParsed_none.mp hmem
      exact (Envelope.isMessage_iff.mp hmessage).resolve_right (halone env
        ⟨front, rest, heq, hall, Or.inr ⟨hending, hor.resolve_left Bool.false_ne_true⟩⟩)
    refine ⟨hparsed, fun front env rest heq hcompressed _ => ?_⟩
    have hmessage : env.isMessage = true := Envelope.isMessage_iff.mpr (Or.inr hcompressed)
    apply UnaryCall.throws_of_not
    · intro hcompletes
      -- the message parsed would be the compressed one
      obtain ⟨env', hmem⟩ := @parsed_of_completes _ _ _ _ _ _ none _ _ hcompletes
      obtain ⟨-, -, front', rest', heq', hall, -⟩ := mem_unaryParsed_none.mp hmem
      have hin : env ∈ front' ++ env' :: rest' := by
        rw [← heq', heq]
        exact List.mem_append_right front List.mem_cons_self
      have hcases : env ∈ front' ++ rest' ∨ env = env' := by
        rcases List.mem_append.mp hin with hfront | hrest
        · exact Or.inl (List.mem_append_left rest' hfront)
        · rcases List.mem_cons.mp hrest with rfl | hrest
          · exact Or.inr rfl
          · exact Or.inl (List.mem_append_right front' hrest)
      rcases hcases with hother | rfl
      · rw [not_isMessage_of_isSuccess (hall env hother)] at hmessage
        cases hmessage
      · have hdata := hparsed env hmem
        rw [hcompressed] at hdata
        revert hdata
        decide
    · intro hwaits
      -- and what is waited behind would be nothing else
      obtain ⟨hwaiting, hall, hcount⟩ := unaryLoop_waits_iff.mp hwaits
      rw [heq, countP_of_alone hmessage] at hcount
      have hnone := List.countP_eq_zero.mp (show (front ++ rest).countP Envelope.isMessage = 0 by
        simp only [Option.toList_none, List.length_nil] at hcount
        omega)
      refine halone env ⟨front, rest, heq, fun e he => ?_, Or.inl hwaiting⟩ hcompressed
      have hmem : e ∈ es := by
        rw [heq]
        rcases List.mem_append.mp he with he | he
        · exact List.mem_append_left _ he
        · exact List.mem_append_right front (List.mem_cons_of_mem env he)
      exact (hall e hmem).resolve_left (hnone e he)

end Parsed

-- ============================================================================
-- The three loops
-- ============================================================================

section Transports

variable {M : Type*} (parse : Bytes → Except JsError M)
  (endStreamFromJson : Bytes → Except JsError EndStream) (writePromise : WritePromise)
  (responseHeaders : Headers) (es : List Envelope)

/-- The stream of the WebSocket transport refuses compressed envelopes. -/
def IterateRefuses : Prop :=
  RefusesCompressed (iterateParsed parse (writePromise.seen es)) (writePromise.seen es)
    (fun front => (iterateLoop parse endStreamFromJson .waiting front {}).ending = .waiting)
    (∃ error, (iterate parse endStreamFromJson writePromise es).ending = .thrown error)

/-- So does the stream of the WebTransport transport. -/
def ResponseBodyRefuses : Prop :=
  RefusesCompressed (responseBodyParsed parse endStreamFromJson (writePromise.seen es))
    (writePromise.seen es)
    (fun front =>
      (parseLoop parse endStreamFromJson responseHeaders .waiting front false {}).ending = .waiting)
    (∃ error, (parseResponseBody parse endStreamFromJson writePromise responseHeaders es).ending =
      .thrown error)

/-- So does its unary call. -/
def UnaryRefuses : Prop :=
  RefusesCompressed
    (unaryParsed parse endStreamFromJson writePromise.await (writePromise.seen es) none false)
    (writePromise.seen es)
    (fun front =>
      (unaryLoop parse endStreamFromJson responseHeaders .waiting front none false {}).waits = true)
    ((unary parse endStreamFromJson writePromise responseHeaders es).throws = true)

end Transports

end Web
end BidiWeb
