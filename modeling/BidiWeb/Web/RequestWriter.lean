/-
  BidiWeb.Web.RequestWriter

  What the calls of one mux send: `next` of the transport's `stream` hands the
  stream it opened to `runWebTransportCall`, whose detached task writes the
  request, and `iterate` releases the stream when the consumer is done with
  the response.

  The two share nothing but the sockets, so a label names which of them moves:
  the task after its iterator produced a message, ended or threw, the consumer
  when it leaves `iterate`.  The log has the frames in the order in which they
  were given to a socket, and the resets received among them.
-/

import BidiWeb.Web.WebSocketMux

namespace BidiWeb
namespace Web

open BidiWeb.Lib
open BidiWeb.Core (JsError Code)

-- ============================================================================
-- State
-- ============================================================================

/-- How far `runWebTransportCall` is with the request of a stream. -/
inductive Writer where
  /-- The headers envelope is still to be written. -/
  | headers
  /-- The task waits for the request iterator. -/
  | messages
  | closed
  | aborted
deriving DecidableEq, Repr

/-- The task writes nothing any more. -/
def Writer.finished : Writer → Bool
  | .headers | .messages => false
  | .closed | .aborted => true

/-- A mux and the request writer of each stream it opened. -/
structure Calls where
  mux : WebSocketMux := {}
  writers : List Writer := []
deriving DecidableEq, Repr

/-- What a call does with its own stream, the opening of it included. -/
def MuxEvent.ofCall : MuxEvent → Bool
  | .resume _ | .write _ _ | .closeWriter _ | .closeStream _ => true
  | _ => false

inductive CallEvent where
  /-- An `openStream` resumes, or something happens to the mux that no call does. -/
  | mux (ev : MuxEvent)
  /-- `writer.write(encodeEnvelope(writeHeaderFlag, headersBytes))`. -/
  | headers (h : Nat) (headersBytes : Bytes)
  /-- The request iterator of stream `h` yields. -/
  | message (h : Nat) (msg : Bytes)
  /-- The request iterator of stream `h` ends: `writer.close()`. -/
  | finish (h : Nat)
  /-- The request iterator of stream `h` throws: `writer.abort(err)`. -/
  | fail (h : Nat)
  /-- `iterate` of stream `h` ends or is left by its consumer. -/
  | release (h : Nat)
deriving DecidableEq, Repr

-- ============================================================================
-- Steps
-- ============================================================================

namespace Calls

variable (c : Calls)

/-- The writer of stream `h` moves on and acts on its writable. -/
def write [ConnectPackage] (h : Nat) (before after : Writer) (ev : MuxEvent) : Option Calls :=
  if c.writers[h]? = some before then
    (c.mux.step ev).map fun mux => { mux, writers := c.writers.set h after }
  else none

/-- A read behind the response headers that `iterate` may end with.  Which
    messages parse is not known here, so any envelope can be one: a message
    that does not parse, one with another flag, or an end-stream.  At the end
    of the response it waits for the request. -/
def endsResponse (writer : Writer) : ReadResult Envelope JsError → Bool
  | .chunk _ | .rejected _ => true
  | .done => writer.finished

/-- `iterate` runs once the response headers have been read, and ends with the
    response or when the request fails. -/
def leaves (h : Nat) : Bool :=
  match c.mux.streams[h]?, c.writers[h]? with
  | some s, some writer =>
      writer ≠ .headers && s.response.consumed.head?.any (·.flag = flagEnvelopeHeaders) &&
        (s.response.envelopes.results.tail.any (endsResponse writer) || writer = .aborted)
  | _, _ => false

def step [ConnectPackage] (ev : CallEvent) : Option Calls :=
  match ev with
  | .mux (.resume i) =>
      (c.mux.step (.resume i)).map fun mux => { mux, writers := c.writers ++ [.headers] }
  | .mux ev => if ev.ofCall then none else (c.mux.step ev).map fun mux => { c with mux }
  | .headers h headersBytes =>
      c.write h .headers .messages (.write h (Core.encodeEnvelope flagEnvelopeHeaders headersBytes))
  | .message h msg =>
      c.write h .messages .messages (.write h (Core.encodeEnvelope flagEnvelopeData msg))
  | .finish h => c.write h .messages .closed (.closeWriter h)
  | .fail h => c.write h .messages .aborted (.closeStream h)
  | .release h =>
      -- the `finally` block
      if c.leaves h then some { c with mux := c.mux.closeStream h } else none

end Calls

/-- All calls on one `WebSocketMux`. -/
def calls [ConnectPackage] (closeWhenIdle : Bool) : Machine Calls CallEvent where
  init := { mux := { closeWhenIdle } }
  step c ev := c.step ev

-- ============================================================================
-- What is seen on the wire
-- ============================================================================

inductive Seen where
  /-- `socket.send` of an envelope of stream `h`, on an open socket. -/
  | sent (h : Nat) (envelope : Bytes)
  /-- A reset frame with the ID of stream `h` arrives. -/
  | reset (h : Nat)
deriving DecidableEq, Repr

/-- The stream ID of a reset frame. -/
def resetId? (message : Bytes) : Option UInt32 :=
  match message with
  | i₀ :: i₁ :: i₂ :: i₃ :: flag :: _ =>
      if flag = flagEnvelopeReset then some (Lib.getUint32 i₀ i₁ i₂ i₃) else none
  | _ => none

namespace Calls

/-- The streams opened with the ID a received reset frame names. -/
def resetStreams (c : Calls) : CallEvent → List Nat
  | .mux (.onmessage _ message) =>
      (List.range c.mux.streams.length).filter fun h => resetId? message = some (wireId h)
  | _ => []

def observe (c : Calls) (ev : CallEvent) (c' : Calls) : List Seen :=
  (c.resetStreams ev).map .reset ++
    (Store.gained (c.mux.sockets.map (·.sent)) (c'.mux.sockets.map (·.sent))).map
      fun p => .sent p.1 p.2

end Calls

/-- The calls on one mux with the log of what was sent and received. -/
def wire [ConnectPackage] (closeWhenIdle : Bool) : Machine (Calls × List Seen) CallEvent :=
  (calls closeWhenIdle).logged Calls.observe

/-- The flag of a frame that carries this stream ID. -/
def Seen.flag? (streamId : UInt32) : Seen → Option UInt8
  | .sent h envelope => if wireId h = streamId then envelope.head? else none
  | .reset _ => none

/-- A reset of this stream is sent or received. -/
def Seen.resets (streamId : UInt32) : Seen → Bool
  | .sent h envelope => wireId h = streamId && envelope.head? = some flagEnvelopeReset
  | .reset h => wireId h = streamId

/-- A frame of this stream is sent. -/
def Seen.sends (streamId : UInt32) : Seen → Bool
  | .sent h _ => wireId h = streamId
  | .reset _ => false

/-- The flags of the frames sent with a stream ID. -/
def flagsOf (streamId : UInt32) (log : List Seen) : List UInt8 := log.filterMap (·.flag? streamId)

/-- Headers, then data, then at most one end-stream, then at most one reset,
    or nothing at all. -/
def InOrder (flags : List UInt8) : Prop :=
  flags = [] ∨ ∃ data ends resets, ends ≤ 1 ∧ resets ≤ 1 ∧
    flags = flagEnvelopeHeaders :: (List.replicate data flagEnvelopeData ++
      List.replicate ends flagEnvelopeEndStream ++ List.replicate resets flagEnvelopeReset)

/-- Nothing is sent with a stream ID after a reset was sent or received. -/
def SilentAfterReset (streamId : UInt32) (log : List Seen) : Prop :=
  log.Pairwise fun x y => x.resets streamId = true → y.sends streamId = false

instance (streamId : UInt32) (log : List Seen) : Decidable (SilentAfterReset streamId log) :=
  inferInstanceAs (Decidable (log.Pairwise _))

/-- The frames sent with one stream ID are those of one request. -/
structure WellFramed (streamId : UInt32) (log : List Seen) : Prop where
  ordered : InOrder (flagsOf streamId log)
  silent : SilentAfterReset streamId log

-- ============================================================================
-- One more entry of the log
-- ============================================================================

section Log

variable {id : UInt32} {log : List Seen}

theorem flagsOf_concat (id : UInt32) (log : List Seen) (x : Seen) :
    flagsOf id (log ++ [x]) = flagsOf id log ++ (x.flag? id).toList := by
  simp only [flagsOf, List.filterMap_append]
  cases h : x.flag? id <;> simp [h]

theorem flagsOf_append_resets (id : UInt32) (log : List Seen) (hs : List Nat) :
    flagsOf id (log ++ hs.map .reset) = flagsOf id log := by
  have hnone : (hs.map Seen.reset).filterMap (·.flag? id) = [] := by
    refine List.filterMap_eq_nil_iff.mpr fun x hx => ?_
    obtain ⟨h, -, rfl⟩ := List.mem_map.mp hx
    rfl
  rw [flagsOf, List.filterMap_append, hnone, List.append_nil, flagsOf]

theorem silent_append_resets {hs : List Nat} (hlog : SilentAfterReset id log) :
    SilentAfterReset id (log ++ hs.map .reset) := by
  refine List.pairwise_append.mpr ⟨hlog, ?_, ?_⟩
  · exact List.pairwise_map.mpr (List.pairwise_of_forall fun _ _ _ => rfl)
  · intro x _ y hy _
    obtain ⟨h, -, rfl⟩ := List.mem_map.mp hy
    rfl

theorem silent_concat {x : Seen} (hlog : SilentAfterReset id log)
    (hx : x.sends id = true → ∀ y ∈ log, y.resets id = false) :
    SilentAfterReset id (log ++ [x]) := by
  refine List.pairwise_append.mpr ⟨hlog, List.pairwise_singleton _ _, ?_⟩
  intro y hy z hz hreset
  obtain rfl := List.mem_singleton.mp hz
  refine Bool.eq_false_iff.mpr fun hsends => ?_
  rw [hx hsends y hy] at hreset
  cases hreset

/-- A reset among the flags is one in the log. -/
theorem resets_of_mem_flagsOf (h : flagEnvelopeReset ∈ flagsOf id log) :
    ∃ x ∈ log, x.resets id = true := by
  obtain ⟨x, hx, hflag⟩ := List.mem_filterMap.mp h
  refine ⟨x, hx, ?_⟩
  cases x with
  | sent h envelope =>
      simp only [Seen.flag?] at hflag
      split at hflag
      · rename_i hid
        simp [Seen.resets, hid, hflag]
      · cases hflag
  | reset h => cases hflag

-- ============================================================================
-- One more frame of a stream
-- ============================================================================

variable {flags : List UInt8}

theorem inOrder_headers : InOrder [flagEnvelopeHeaders] :=
  Or.inr ⟨0, 0, 0, by omega, by omega, rfl⟩

/-- A request that has neither ended nor been reset is in its messages. -/
theorem InOrder.messages (hflags : InOrder flags) (hne : flags ≠ [])
    (hend : flagEnvelopeEndStream ∉ flags) (hreset : flagEnvelopeReset ∉ flags) :
    ∃ data, flags = flagEnvelopeHeaders :: List.replicate data flagEnvelopeData := by
  rcases hflags with hnil | ⟨data, ends, resets, -, -, rfl⟩
  · exact absurd hnil hne
  · have hends : ends = 0 := by
      by_contra hpos
      exact hend (by simp [hpos])
    have hresets : resets = 0 := by
      by_contra hpos
      exact hreset (by simp [hpos])
    subst hends hresets
    exact ⟨data, by simp⟩

theorem inOrder_concat_data {data : Nat}
    (hflags : flags = flagEnvelopeHeaders :: List.replicate data flagEnvelopeData) :
    InOrder (flags ++ [flagEnvelopeData]) := by
  refine Or.inr ⟨data + 1, 0, 0, by omega, by omega, ?_⟩
  simp [hflags, List.replicate_succ']

theorem inOrder_concat_endStream {data : Nat}
    (hflags : flags = flagEnvelopeHeaders :: List.replicate data flagEnvelopeData) :
    InOrder (flags ++ [flagEnvelopeEndStream]) := by
  refine Or.inr ⟨data, 1, 0, by omega, by omega, ?_⟩
  simp [hflags]

theorem InOrder.concat_reset (hflags : InOrder flags) (hne : flags ≠ [])
    (hreset : flagEnvelopeReset ∉ flags) : InOrder (flags ++ [flagEnvelopeReset]) := by
  rcases hflags with hnil | ⟨data, ends, resets, hends, -, rfl⟩
  · exact absurd hnil hne
  · have hresets : resets = 0 := by
      by_contra hpos
      exact hreset (by simp [hpos])
    subst hresets
    exact Or.inr ⟨data, ends, 1, hends, by omega, by simp⟩

end Log

end Web
end BidiWeb
