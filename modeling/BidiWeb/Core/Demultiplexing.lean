/-
  BidiWeb.Core.Demultiplexing

  What the streams of a multiplexed connection give to their handlers and
  take from them, against a log of what has happened on the connection.

  The specification does not mention the map: the input of a stream is what
  the log has of its envelopes from its headers frame to its reset, its
  completion or a teardown, and its output is what its handler has written
  before its reset or a teardown.
-/

import BidiWeb.Core.MuxedStreams
import BidiWeb.Lib.Window
import Mathlib.Data.List.Nodup

namespace BidiWeb
namespace Core

open BidiWeb.Lib

-- ============================================================================
-- The log of a connection
-- ============================================================================

inductive SocketObs where
  /-- The read loop takes a well-formed message. -/
  | frame (f : StreamFrame)
  /-- The handler of RPC `h` writes a chunk. -/
  | wrote (h : Nat) (chunk : Bytes)
  /-- The bridge of RPC `h` has closed its socket, which is the last it does. -/
  | completed (h : Nat)
  | teardown

/-- What a step shows. -/
def observe (_ : MuxedSocket) (ev : MuxedEvent) (c' : MuxedSocket) : List SocketObs :=
  match ev with
  | .receive message =>
      match decodeStreamFrame message with
      | .ok f => .frame f :: if c'.ended.isSome then [.teardown] else []
      | .error _ => [.teardown]
  | .readFailed | .readDone | .idleTimeout | .abortSignal _ => [.teardown]
  | .rpcWrite h chunk => [.wrote h chunk]
  | .rpcWriterClosed h => [.completed h]
  | .rpcRead _ | .rpcFinish _ | .rpcReaderCancelled _ | .rpcSettled _ | .finish => []

namespace SocketObs

/-- The headers frame that opens stream `id`. -/
def opens (id : UInt32) : SocketObs → Bool
  | .frame f => f.streamId = id && f.flag = flagEnvelopeHeaders
  | .wrote .. | .completed _ | .teardown => false

/-- Stream `id` is reset, or torn down with the others. -/
def silences (id : UInt32) : SocketObs → Bool
  | .frame f => f.streamId = id && f.flag = flagEnvelopeReset
  | .teardown => true
  | .wrote .. | .completed _ => false

/-- Stream `id`, which is RPC `h`, takes no more envelopes. -/
def ends (id : UInt32) (h : Nat) (x : SocketObs) : Bool :=
  match x with
  | .completed j => j = h
  | .frame _ | .wrote .. | .teardown => x.silences id

/-- The envelope of stream `id`. -/
def envelopeFor (id : UInt32) : SocketObs → Option Bytes
  | .frame f => if f.streamId = id then some f.envelope else none
  | .wrote .. | .completed _ | .teardown => none

/-- The chunk that the handler of RPC `h` writes. -/
def chunkBy (h : Nat) : SocketObs → Option Bytes
  | .wrote j chunk => if j = h then some chunk else none
  | .frame _ | .completed _ | .teardown => none

end SocketObs

/-- What a message on the connection carries for stream `id`. -/
def payloadFor (id : UInt32) : Bytes → Option Bytes
  | i₀ :: i₁ :: i₂ :: i₃ :: envelope => if getUint32 i₀ i₁ i₂ i₃ = id then some envelope else none
  | _ => none

/-- While stream `id`, which is RPC `h`, takes envelopes. -/
def inputWindow (id : UInt32) (h : Nat) (log : List SocketObs) : Window SocketObs :=
  Window.window (SocketObs.opens id) (SocketObs.ends id h) log

/-- While stream `id` may write. -/
def outputWindow (id : UInt32) (log : List SocketObs) : Window SocketObs :=
  Window.window (SocketObs.opens id) (SocketObs.silences id) log

/-- The envelopes due to the handler of stream `id`. -/
def inputOf (id : UInt32) (h : Nat) (log : List SocketObs) : List Bytes :=
  (inputWindow id h log).entries.filterMap (SocketObs.envelopeFor id)

/-- The chunks due on the connection from stream `id`. -/
def outputOf (id : UInt32) (h : Nat) (log : List SocketObs) : List Bytes :=
  (outputWindow id log).entries.filterMap (SocketObs.chunkBy h)

namespace SocketObs

variable {id : UInt32} {h : Nat} {f : StreamFrame}

theorem silences_frame : silences id (.frame f) = true ↔
    f.streamId = id ∧ f.flag = flagEnvelopeReset := by
  simp [silences]

theorem silences_of_ne (hne : id ≠ f.streamId) : silences id (.frame f) = false := by
  simp [silences, hne.symm]

theorem ends_of_ne (hne : id ≠ f.streamId) : ends id h (.frame f) = false :=
  silences_of_ne hne

theorem envelopeFor_of_ne (hne : id ≠ f.streamId) : envelopeFor id (.frame f) = none := by
  simp [envelopeFor, hne.symm]

end SocketObs

theorem payloadFor_encode (id j : UInt32) (chunk : Bytes) :
    payloadFor id (encodeStreamFrame j chunk) = if j = id then some chunk else none := by
  obtain ⟨a, b, c, d, hput⟩ : ∃ a b c d, putUint32 j = [a, b, c, d] := ⟨_, _, _, _, rfl⟩
  rw [encodeStreamFrame, hput]
  show (if getUint32 a b c d = id then some chunk else none) = _
  rw [getUint32_of_put hput]

-- ============================================================================
-- The invariant
-- ============================================================================

/-- The request readable still has what was enqueued and not read. -/
def Rpc.Intact (setup : MuxedSetup) (r : Rpc) : Prop :=
  r.phase = .serving ∨ setup.cancelsSource = false

theorem Rpc.Steady.intact {setup : MuxedSetup} {r : Rpc} (h : r.Steady setup)
    (hopen : r.readable.canCloseOrEnqueue = true) : r.Intact setup := by
  rw [h] at hopen
  simpa [Rpc.Intact] using hopen

namespace MuxedSocket

open SocketObs

/-- A stream against its input window. -/
def InputOk (setup : MuxedSetup) (c : MuxedSocket) (h : Nat) (r : Rpc) : Window SocketObs → Prop
  | .before => False
  | .during log => (c.streams r.streamId = some h ∧ r.phase ≠ .released) ∧
      (r.Intact setup →
        r.readable.received ++ r.readable.queue = log.filterMap (envelopeFor r.streamId)) ∧
      r.readable.received <+: log.filterMap (envelopeFor r.streamId)
  | .after log => c.streams r.streamId ≠ some h ∧
      (r.phase = .serving → r.reset = true ∧ r.readable.hasEnded = true) ∧
      r.readable.received <+: log.filterMap (envelopeFor r.streamId)

/-- A stream against its output window. -/
def OutputOk (c : MuxedSocket) (h : Nat) (r : Rpc) : Window SocketObs → Prop
  | .before => False
  | .during log => (r.phase = .serving → r.reset = false) ∧
      c.sent.filterMap (payloadFor r.streamId) = log.filterMap (chunkBy h)
  | .after log => (r.phase = .serving → r.reset = true) ∧
      c.sent.filterMap (payloadFor r.streamId) = log.filterMap (chunkBy h)

/-- The invariant of a connection and its log. -/
structure Demultiplexes (setup : MuxedSetup) (c : MuxedSocket) (log : List SocketObs) : Prop where
  input : ∀ (h : Nat) (r : Rpc), c.rpcs[h]? = some r →
    c.InputOk setup h r (inputWindow r.streamId h log)
  output : ∀ (h : Nat) (r : Rpc), c.rpcs[h]? = some r → c.OutputOk h r (outputWindow r.streamId log)
  unopened : ∀ id, id ∉ c.ids →
    (∀ x ∈ log, opens id x = false) ∧ c.sent.filterMap (payloadFor id) = []

variable {c c' : MuxedSocket} {setup : MuxedSetup} {log : List SocketObs}
  {h : Nat} {r r' : Rpc} {w : Window SocketObs} {x : SocketObs}

theorem demultiplexes_init : Demultiplexes setup (handleMuxedBidiSocket setup).init [] where
  input := fun _ _ h => by cases h
  output := fun _ _ h => by cases h
  unopened := fun _ _ => ⟨fun _ h => by (cases h), rfl⟩

-- ============================================================================
-- One stream
-- ============================================================================

/-- What is not for the stream passes by. -/
theorem InputOk.pass (hw : c.InputOk setup h r w) (hx : ends r.streamId h x = false)
    (henvelope : envelopeFor r.streamId x = none) :
    c.InputOk setup h r (w.next (opens r.streamId) (ends r.streamId h) x) := by
  cases w with
  | before => exact hw.elim
  | during log =>
      rw [Window.next_during hx]
      obtain ⟨hreg, hall, hpre⟩ := hw
      exact ⟨hreg,
        fun hintact => by simp [henvelope, hall hintact], by simpa [henvelope] using hpre⟩
  | after log => exact hw

theorem OutputOk.pass (hw : c.OutputOk h r w) (hx : silences r.streamId x = false)
    (hchunk : chunkBy h x = none) :
    c.OutputOk h r (w.next (opens r.streamId) (silences r.streamId) x) := by
  cases w with
  | before => exact hw.elim
  | during log =>
      rw [Window.next_during hx]
      exact ⟨hw.1, by simp [hchunk, hw.2]⟩
  | after log => exact hw

/-- The stream takes no more, and what it has taken stays. -/
theorem InputOk.shut (hw : c.InputOk setup h r w) (hx : ends r.streamId h x = true)
    (hid : r'.streamId = r.streamId) (hgone : c'.streams r.streamId ≠ some h)
    (hreset : r'.phase = .serving → r'.reset = true ∧ r'.readable.hasEnded = true)
    (hreceived : r'.readable.received = r.readable.received) :
    c'.InputOk setup h r' (w.next (opens r.streamId) (ends r.streamId h) x) := by
  cases w with
  | before => exact hw.elim
  | during log =>
      rw [Window.next_during_of_shuts hx]
      refine ⟨hid.symm ▸ hgone, hreset, ?_⟩
      rw [hid, hreceived]
      exact hw.2.2
  | after log =>
      refine ⟨hid.symm ▸ hgone, hreset, ?_⟩
      rw [hid, hreceived]
      exact hw.2.2

theorem OutputOk.shut (hw : c.OutputOk h r w) (hx : silences r.streamId x = true)
    (hid : r'.streamId = r.streamId) (hreset : r'.phase = .serving → r'.reset = true)
    (hsent : c'.sent = c.sent) :
    c'.OutputOk h r' (w.next (opens r.streamId) (silences r.streamId) x) := by
  cases w with
  | before => exact hw.elim
  | during log =>
      rw [Window.next_during_of_shuts hx]
      exact ⟨hreset, by rw [hid, hsent]; exact hw.2⟩
  | after log => exact ⟨hreset, by rw [hid, hsent]; exact hw.2⟩

theorem InputOk.of_streams (hw : c.InputOk setup h r w)
    (hstreams : c'.streams r.streamId = c.streams r.streamId) : c'.InputOk setup h r w := by
  cases w with
  | before => exact hw
  | during log => exact ⟨⟨hstreams.trans hw.1.1, hw.1.2⟩, hw.2⟩
  | after log => exact ⟨hstreams.symm ▸ hw.1, hw.2⟩

/-- The bridge moves on. -/
theorem OutputOk.of_phase (hw : c.OutputOk h r w) (hid : r'.streamId = r.streamId)
    (hphase : r'.phase = .serving → r.phase = .serving ∧ r'.reset = r.reset)
    (hsent : c'.sent.filterMap (payloadFor r.streamId) = c.sent.filterMap (payloadFor r.streamId)) :
    c'.OutputOk h r' w := by
  cases w with
  | before => exact hw
  | during log =>
      exact ⟨fun hs => (hphase hs).2.trans (hw.1 (hphase hs).1), by rw [hid, hsent]; exact hw.2⟩
  | after log =>
      exact ⟨fun hs => (hphase hs).2.trans (hw.1 (hphase hs).1), by rw [hid, hsent]; exact hw.2⟩

/-- A stream whose entry is gone. -/
theorem InputOk.closed (hw : c.InputOk setup h r w) (hgone : c.streams r.streamId ≠ some h) :
    r.phase = .serving → r.reset = true ∧ r.readable.hasEnded = true := by
  cases w with
  | before => exact hw.elim
  | during log => exact absurd hw.1.1 hgone
  | after log => exact hw.2.1

/-- It sees any entry of the log pass. -/
theorem InputOk.pass_of_closed (hw : c.InputOk setup h r w)
    (hgone : c.streams r.streamId ≠ some h) :
    c.InputOk setup h r (w.next (opens r.streamId) (ends r.streamId h) x) := by
  cases w with
  | before => exact hw.elim
  | during log => exact absurd hw.1.1 hgone
  | after log => exact hw

theorem received_kill (r : Rpc) (reason : JsError) :
    (r.kill reason).readable.hasEnded = true ∧
      (r.kill reason).readable.received = r.readable.received :=
  ⟨ReadableStream.hasEnded_error _ _, (ReadableStream.received_error _ _).1⟩

/-- What a teardown leaves of a stream. -/
theorem InputOk.torn (hw : c.InputOk setup h r w) (reason : JsError)
    (heq : (if c.streams r.streamId = some h then r.kill reason else r) = r') :
    r'.streamId = r.streamId ∧
      (r'.phase = .serving → r'.reset = true ∧ r'.readable.hasEnded = true) ∧
        r'.readable.received = r.readable.received := by
  by_cases hreg : c.streams r.streamId = some h
  · rw [if_pos hreg] at heq
    subst heq
    obtain ⟨hended, hreceived⟩ := received_kill r reason
    exact ⟨rfl, fun _ => ⟨rfl, hended⟩, hreceived⟩
  · rw [if_neg hreg] at heq
    subst heq
    exact ⟨rfl, hw.closed hreg, rfl⟩

-- ============================================================================
-- Changing the connection and its log
-- ============================================================================

theorem index_of_id (hids : c.ids.Nodup) {i j : Nat} {r r' : Rpc} (hr : c.rpcs[i]? = some r)
    (hr' : c.rpcs[j]? = some r') (hid : r.streamId = r'.streamId) : i = j := by
  have hat : ∀ {k : Nat} {s : Rpc}, c.rpcs[k]? = some s → c.ids[k]? = some s.streamId :=
    fun hs => by simp [ids, hs]
  have honce : c.ids.countP (· == r.streamId) ≤ 1 := List.nodup_iff_count.mp hids _
  exact Store.index_unique honce (hat hr) (hat hr') (by simp) (by simp [hid])

theorem mem_ids (hr : c.rpcs[h]? = some r) : r.streamId ∈ c.ids :=
  List.mem_map_of_mem (List.mem_of_getElem? hr)

/-- An entry of the log that opens no stream. -/
theorem Demultiplexes.unopened_concat (hd : c.Demultiplexes setup log) (hids : c'.ids = c.ids)
    (hsent : c'.sent = c.sent) (hx : ∀ id, id ∉ c.ids → opens id x = false) :
    ∀ id, id ∉ c'.ids →
      (∀ y ∈ log ++ [x], opens id y = false) ∧ c'.sent.filterMap (payloadFor id) = [] := by
  intro id hid
  rw [hids] at hid
  obtain ⟨hlog, hnone⟩ := hd.unopened id hid
  refine ⟨fun y hy => ?_, hsent ▸ hnone⟩
  rcases List.mem_append.mp hy with hold | hnew
  · exact hlog y hold
  · exact List.mem_singleton.mp hnew ▸ hx id hid

theorem Demultiplexes.teardown (hd : c.Demultiplexes setup log) (reason : JsError) :
    (c.teardown reason).Demultiplexes setup (log ++ [.teardown]) := by
  have hback : ∀ (j : Nat) (r' : Rpc), (c.teardown reason).rpcs[j]? = some r' → ∃ r,
      c.rpcs[j]? = some r ∧ (if c.streams r.streamId = some j then r.kill reason else r) = r' := by
    intro j r' hr'
    simpa [MuxedSocket.teardown, List.getElem?_mapIdx, Option.map_eq_some_iff] using hr'
  refine ⟨fun j r' hr' => ?_, fun j r' hr' => ?_,
    hd.unopened_concat (ids_teardown reason) rfl fun _ _ => rfl⟩
  · obtain ⟨r, hr, heq⟩ := hback j r' hr'
    obtain ⟨hid, hreset, hreceived⟩ := (hd.input j r hr).torn reason heq
    rw [hid, inputWindow, Window.window_concat]
    exact (hd.input j r hr).shut rfl hid (fun h => by cases h) hreset hreceived
  · obtain ⟨r, hr, heq⟩ := hback j r' hr'
    obtain ⟨hid, hreset, -⟩ := (hd.input j r hr).torn reason heq
    rw [hid, outputWindow, Window.window_concat]
    exact (hd.output j r hr).shut rfl hid (fun hs => (hreset hs).1) rfl

/-- A frame that changes no stream. -/
theorem Demultiplexes.aside (hd : c.Demultiplexes setup log) {f : StreamFrame}
    (hgone : ∀ (j : Nat) (r : Rpc), c.rpcs[j]? = some r → r.streamId = f.streamId →
      c.streams r.streamId ≠ some j)
    (hopened : f.flag = flagEnvelopeHeaders → f.streamId ∈ c.ids) :
    c.Demultiplexes setup (log ++ [.frame f]) := by
  refine ⟨fun j r hr => ?_, fun j r hr => ?_, hd.unopened_concat rfl rfl fun id hid => ?_⟩
  · rw [inputWindow, Window.window_concat]
    by_cases hrid : r.streamId = f.streamId
    · exact (hd.input j r hr).pass_of_closed (hgone j r hr hrid)
    · exact (hd.input j r hr).pass (ends_of_ne hrid) (envelopeFor_of_ne hrid)
  · rw [outputWindow, Window.window_concat]
    cases hx : silences r.streamId (.frame f) with
    | false => exact (hd.output j r hr).pass hx rfl
    | true =>
        have hrid : r.streamId = f.streamId := (silences_frame.mp hx).1.symm
        have hreset := (hd.input j r hr).closed (hgone j r hr hrid)
        exact (hd.output j r hr).shut hx rfl (fun hs => (hreset hs).1) rfl
  · by_contra hopens
    simp only [opens, Bool.not_eq_false, Bool.and_eq_true, decide_eq_true_eq] at hopens
    exact hid (hopens.1 ▸ hopened hopens.2)

/-- A frame for stream `f.streamId` that changes the RPC `h` alone. -/
theorem Demultiplexes.frame (hd : c.Demultiplexes setup log) (hids : c.ids.Nodup) {f : StreamFrame}
    (hr : c.rpcs[h]? = some r) (hrid : r.streamId = f.streamId) (hid : r'.streamId = r.streamId)
    (hrpcs : ∀ (j : Nat) (s : Rpc), c'.rpcs[j]? = some s →
      j = h ∧ s = r' ∨ j ≠ h ∧ c.rpcs[j]? = some s)
    (hstreams : ∀ id, id ≠ f.streamId → c'.streams id = c.streams id)
    (hsent : c'.sent = c.sent) (hsame : c'.ids = c.ids)
    (hin : c'.InputOk setup h r' (inputWindow r.streamId h (log ++ [.frame f])))
    (hout : c'.OutputOk h r' (outputWindow r.streamId (log ++ [.frame f]))) :
    c'.Demultiplexes setup (log ++ [.frame f]) := by
  have hother : ∀ (j : Nat) (s : Rpc), j ≠ h → c.rpcs[j]? = some s → s.streamId ≠ f.streamId :=
    fun j s hne hs heq => hne (index_of_id hids hs hr (heq.trans hrid.symm))
  refine ⟨fun j s hs => ?_, fun j s hs => ?_, hd.unopened_concat hsame hsent fun id hnot => ?_⟩
  · rcases hrpcs j s hs with ⟨rfl, rfl⟩ | ⟨hne, hold⟩
    · rw [hid]
      exact hin
    · have hsid := hother j s hne hold
      rw [inputWindow, Window.window_concat]
      exact ((hd.input j s hold).pass (ends_of_ne hsid) (envelopeFor_of_ne hsid)).of_streams
        (hstreams _ hsid)
  · rcases hrpcs j s hs with ⟨rfl, rfl⟩ | ⟨hne, hold⟩
    · rw [hid]
      exact hout
    · rw [outputWindow, Window.window_concat]
      exact ((hd.output j s hold).pass (silences_of_ne (hother j s hne hold)) rfl).of_phase rfl
        (fun hs => ⟨hs, rfl⟩) (by rw [hsent])
  · have hne : f.streamId ≠ id := fun heq => hnot (heq ▸ hrid ▸ mem_ids hr)
    simp [opens, hne]

-- ============================================================================
-- The steps of the read loop
-- ============================================================================

theorem Demultiplexes.startStream (hd : c.Demultiplexes setup log) {f : StreamFrame}
    (hheaders : f.flag = flagEnvelopeHeaders)
    (hids : (c.startStream f.streamId f.envelope).ids.Nodup) :
    (c.startStream f.streamId f.envelope).Demultiplexes setup (log ++ [.frame f]) := by
  have hfresh : f.streamId ∉ c.ids := by
    rw [ids_startStream, ← List.concat_eq_append, List.nodup_concat] at hids
    exact hids.1
  have hopens : opens f.streamId (.frame f) = true := by simp [opens, hheaders]
  obtain ⟨hbefore, hnone⟩ := hd.unopened _ hfresh
  have hold : ∀ (j : Nat) (s : Rpc), c.rpcs[j]? = some s → s.streamId ≠ f.streamId :=
    fun j s hs heq => hfresh (heq ▸ mem_ids hs)
  refine ⟨fun j s hs => ?_, fun j s hs => ?_, fun id hid => ?_⟩
  · rw [inputWindow, Window.window_concat]
    rcases Store.getElem?_concat.mp hs with hs | ⟨rfl, rfl⟩
    · have hsid := hold j s hs
      refine ((hd.input j s hs).pass (ends_of_ne hsid) (envelopeFor_of_ne hsid)).of_streams ?_
      simp [MuxedSocket.startStream, hsid]
    · rw [Window.window_eq_before hbefore, Window.next_before_of_opens hopens]
      have hwhole : [f.envelope] = [SocketObs.frame f].filterMap (envelopeFor f.streamId) := by
        simp [envelopeFor]
      exact ⟨⟨by simp [MuxedSocket.startStream], by simp⟩, fun _ => hwhole, List.nil_prefix⟩
  · rw [outputWindow, Window.window_concat]
    rcases Store.getElem?_concat.mp hs with hs | ⟨rfl, rfl⟩
    · exact ((hd.output j s hs).pass (silences_of_ne (hold j s hs)) rfl).of_phase rfl
        (fun hs => ⟨hs, rfl⟩) rfl
    · rw [Window.window_eq_before hbefore, Window.next_before_of_opens hopens]
      exact ⟨fun _ => rfl, hnone⟩
  · rw [ids_startStream, List.mem_append, List.mem_singleton, not_or] at hid
    obtain ⟨hlog, hsent⟩ := hd.unopened id hid.1
    refine ⟨fun y hy => ?_, hsent⟩
    rcases List.mem_append.mp hy with hy | hy
    · exact hlog y hy
    · obtain rfl := List.mem_singleton.mp hy
      have hne : f.streamId ≠ id := fun heq => hid.2 heq.symm
      simp [opens, hne]

/-- Modifying the RPC `h` keeps the others. -/
theorem rpcs_modifyRpc {g : Rpc → Rpc} (hr : c.rpcs[h]? = some r) {j : Nat} {s : Rpc}
    (hs : (c.modifyRpc h g).rpcs[j]? = some s) :
    j = h ∧ s = g r ∨ j ≠ h ∧ c.rpcs[j]? = some s := by
  simp only [MuxedSocket.modifyRpc, Store.getElem?_modify] at hs
  split at hs
  · rename_i heq
    subst heq
    obtain ⟨r₀, hr₀, rfl⟩ := hs
    obtain rfl : r = r₀ := Option.some.inj (hr.symm.trans hr₀)
    exact .inl ⟨rfl, rfl⟩
  · rename_i hne
    exact .inr ⟨fun heq => hne heq.symm, hs⟩

/-- Setting the readable of RPC `h` to what it is changes nothing. -/
theorem modifyRpc_self (hr : c.rpcs[h]? = some r) :
    (c.modifyRpc h fun s => { s with readable := r.readable }) = c := by
  have hsame : c.rpcs.modify h (fun s => { s with readable := r.readable }) = c.rpcs := by
    refine List.ext_getElem? fun j => ?_
    by_cases hj : h = j
    · subst hj
      simp [hr]
    · simp [hj]
  simp only [MuxedSocket.modifyRpc, hsame]

theorem Demultiplexes.reset (hd : c.Demultiplexes setup log) (hids : c.ids.Nodup) {f : StreamFrame}
    (hr : c.rpcs[h]? = some r) (hrid : r.streamId = f.streamId)
    (hflag : f.flag = flagEnvelopeReset) :
    ((c.delete f.streamId).modifyRpc h (·.kill resetReason)).Demultiplexes setup
      (log ++ [.frame f]) := by
  have hsilences : silences r.streamId (.frame f) = true := silences_frame.mpr ⟨hrid.symm, hflag⟩
  obtain ⟨hended, hreceived⟩ := received_kill r resetReason
  refine hd.frame hids hr hrid (show (r.kill resetReason).streamId = r.streamId from rfl)
    (fun j s hs => rpcs_modifyRpc (c := c.delete f.streamId) hr hs) (fun id hne => ?_) rfl
    (ids_modifyRpc fun _ => rfl) ?_ ?_
  · simp [MuxedSocket.delete, MuxedSocket.modifyRpc, hne]
  · rw [inputWindow, Window.window_concat]
    exact (hd.input h r hr).shut hsilences rfl
      (by simp [MuxedSocket.delete, MuxedSocket.modifyRpc, hrid]) (fun _ => ⟨rfl, hended⟩) hreceived
  · rw [outputWindow, Window.window_concat]
    exact (hd.output h r hr).shut hsilences rfl (fun _ => rfl) rfl

/-- An envelope for a registered stream. -/
theorem Demultiplexes.take (hd : c.Demultiplexes setup log) (hids : c.ids.Nodup) {f : StreamFrame}
    (hr : c.rpcs[h]? = some r) (hrid : r.streamId = f.streamId)
    (hreg : c.streams f.streamId = some h) (hflag : f.flag ≠ flagEnvelopeReset)
    {readable : ReadableStream Bytes JsError}
    (htakes : r.Intact setup → r.readable.enqueue f.envelope = some readable)
    (hdrops : ¬ r.Intact setup → readable = r.readable) :
    (c.modifyRpc h fun r => { r with readable }).Demultiplexes setup (log ++ [.frame f]) := by
  have hpass : silences r.streamId (.frame f) = false := by simp [silences, hflag]
  refine hd.frame hids hr hrid (show { r with readable }.streamId = r.streamId from rfl)
    (fun j s hs => rpcs_modifyRpc hr hs) (fun _ _ => rfl) rfl (ids_modifyRpc fun _ => rfl) ?_ ?_
  · have hw := hd.input h r hr
    rw [inputWindow, Window.window_concat]
    change c.InputOk setup h r (Window.window (opens r.streamId) (ends r.streamId h) log) at hw
    cases hwin : Window.window (opens r.streamId) (ends r.streamId h) log with
    | before =>
        rw [hwin] at hw
        exact hw.elim
    | during entries =>
        rw [hwin] at hw
        rw [Window.next_during (by simpa [ends] using hpass)]
        obtain ⟨hlive, hall, hpre⟩ := hw
        have hgrown : (entries ++ [SocketObs.frame f]).filterMap (envelopeFor r.streamId) =
            entries.filterMap (envelopeFor r.streamId) ++ [f.envelope] := by
          simp [envelopeFor, hrid]
        have hwhole : r.Intact setup → readable.received ++ readable.queue =
            (entries ++ [SocketObs.frame f]).filterMap (envelopeFor r.streamId) := by
          intro hintact
          rw [(ReadableStream.received_queue_enqueue (htakes hintact)).1, hall hintact, hgrown]
        refine ⟨hlive, hwhole, ?_⟩
        by_cases hintact : r.Intact setup
        · exact ⟨_, hwhole hintact⟩
        · rw [hdrops hintact, hgrown]
          exact hpre.trans (List.prefix_append ..)
    | after entries =>
        rw [hwin] at hw
        exact absurd (hrid ▸ hreg) hw.1
  · rw [outputWindow, Window.window_concat]
    exact ((hd.output h r hr).pass hpass rfl).of_phase rfl (fun hs => ⟨hs, rfl⟩) rfl

/-- The `finally` block of the read loop. -/
theorem Demultiplexes.endLoop (hd : c.Demultiplexes setup log) (cause : LoopEnd) :
    (c.endLoop cause).Demultiplexes setup (log ++ [.teardown]) :=
  have hdown := hd.teardown (teardownReason cause)
  ⟨hdown.input, hdown.output, hdown.unopened⟩

theorem Demultiplexes.enqueue (hd : c.Demultiplexes setup log) (hc : c.Owned setup)
    (hids : c.ids.Nodup)
    {f : StreamFrame} (hreg : c.streams f.streamId = some h) (hflag : f.flag ≠ flagEnvelopeReset)
    (hopen : c.ended = none) :
    (c.enqueue h f.envelope).Demultiplexes setup (log ++ (.frame f ::
      if (c.enqueue h f.envelope).ended.isSome then [.teardown] else [])) := by
  obtain ⟨r, hr, hrid, hsteady⟩ := hc.registered _ h hreg
  cases hfits : r.readable.canCloseOrEnqueue with
  | true =>
      obtain ⟨readable, htakes, heq⟩ := enqueue_of_open hr hfits f.envelope
      have hgoes : (c.modifyRpc h fun r => { r with readable }).ended.isSome = false := by
        simp [MuxedSocket.modifyRpc, hopen]
      rw [heq, if_neg (by simp [hgoes])]
      exact hd.take hids hr hrid hreg hflag (fun _ => htakes)
        fun hnot => absurd (hsteady.intact hfits) hnot
  | false =>
      -- the readable is closed: the exception leaves the loop
      have hends : (c.endLoop (.threw enqueueError)).ended.isSome = true := rfl
      have hlost : ¬ r.Intact setup := by
        rintro (hserving | hkeeps)
        · rw [hsteady.open hserving] at hfits
          cases hfits
        · rw [hsteady, hkeeps] at hfits
          simp at hfits
      have hsame : (c.modifyRpc h fun r' => { r' with readable := r.readable }).Demultiplexes
          setup (log ++ [.frame f]) :=
        hd.take hids hr hrid hreg hflag (fun hintact => absurd hintact hlost) fun _ => rfl
      rw [modifyRpc_self hr] at hsame
      rw [enqueue_of_closed hr hfits, if_pos hends]
      have hdown := hsame.endLoop (.threw enqueueError)
      rwa [List.append_assoc] at hdown

-- ============================================================================
-- The steps of the bridges
-- ============================================================================

/-- A step of a bridge that leaves nothing in the log. -/
theorem Demultiplexes.bridge (hd : c.Demultiplexes setup log)
    (hinput : ∀ (j : Nat) (s : Rpc) w, c'.rpcs[j]? = some s → ∃ s₀, c.rpcs[j]? = some s₀ ∧
      s.streamId = s₀.streamId ∧
      (s.phase = .serving → s₀.phase = .serving ∧ s.reset = s₀.reset) ∧
      (c.InputOk setup j s₀ w → c'.InputOk setup j s w))
    (hsent : c'.sent = c.sent) (hsame : c'.ids = c.ids) : c'.Demultiplexes setup log := by
  refine ⟨fun j s hs => ?_, fun j s hs => ?_, fun id hid => ?_⟩
  · obtain ⟨s₀, hs₀, hsid, -, hok⟩ := hinput j s (inputWindow s.streamId j log) hs
    exact hok (hsid ▸ hd.input j s₀ hs₀)
  · obtain ⟨s₀, hs₀, hsid, hphase, -⟩ := hinput j s (inputWindow s.streamId j log) hs
    rw [hsid]
    exact (hd.output j s₀ hs₀).of_phase hsid hphase (by rw [hsent])
  · rw [hsent]
    exact hd.unopened id (hsame ▸ hid)

theorem Demultiplexes.read (hd : c.Demultiplexes setup log) (hr : c.rpcs[h]? = some r)
    (hserving : r.phase = .serving) :
    (c.modifyRpc h fun r => { r with readable := r.readable.read }).Demultiplexes setup log := by
  refine hd.bridge (fun j s w hs => ?_) rfl (ids_modifyRpc fun _ => rfl)
  rcases rpcs_modifyRpc hr hs with ⟨rfl, rfl⟩ | ⟨-, hold⟩
  · refine ⟨r, hr, rfl, fun hserving => ⟨hserving, rfl⟩, fun hw => ?_⟩
    cases w with
    | before => exact hw
    | during entries =>
        obtain ⟨hlive, hall, -⟩ := hw
        have hwhole := (ReadableStream.received_queue_read r.readable).trans (hall (.inl hserving))
        exact ⟨hlive, fun _ => hwhole, ⟨_, hwhole⟩⟩
    | after entries =>
        obtain ⟨hgone, hreset, hprefix⟩ := hw
        have hended := (hreset hserving).2
        refine ⟨hgone, fun hs => ⟨(hreset hs).1, ?_⟩, ?_⟩
        · exact ReadableStream.hasEnded_read_of_hasEnded hended
        · rw [ReadableStream.received_read_of_hasEnded hended]
          exact hprefix
  · exact ⟨s, hold, rfl, fun hserving => ⟨hserving, rfl⟩, id⟩

/-- The bridge of RPC `h` reaches its `finally` block. -/
theorem Demultiplexes.finishRpc (hd : c.Demultiplexes setup log) (hr : c.rpcs[h]? = some r)
    (hserving : r.phase = .serving) :
    (c.modifyRpc h (·.cancelReader setup)).Demultiplexes setup log := by
  refine hd.bridge (fun j s w hs => ?_) rfl (ids_modifyRpc fun _ => rfl)
  rcases rpcs_modifyRpc hr hs with ⟨rfl, rfl⟩ | ⟨-, hold⟩
  · have hreceived : (r.cancelReader setup).readable.received = r.readable.received := by
      unfold Rpc.cancelReader
      split
      · exact ReadableStream.received_cancel _
      · rfl
    refine ⟨r, hr, rfl, fun hs => by (cases hs), fun hw => ?_⟩
    cases w with
    | before => exact hw
    | during entries =>
        obtain ⟨hlive, hall, hprefix⟩ := hw
        refine ⟨⟨hlive.1, by simp [Rpc.cancelReader]⟩, ?_, hreceived ▸ hprefix⟩
        rintro (hs | hkeeps)
        · cases hs
        · simpa [Rpc.cancelReader, hkeeps] using hall (.inl hserving)
    | after entries => exact ⟨hw.1, fun hs => by (cases hs), hreceived ▸ hw.2.2⟩
  · exact ⟨s, hold, rfl, fun hserving => ⟨hserving, rfl⟩, id⟩

/-- A bridge in its `finally` block moves on to phase `p`. -/
theorem Demultiplexes.cleanup (hd : c.Demultiplexes setup log) {p : RpcPhase} {c₀ : MuxedSocket}
    (hr : c.rpcs[h]? = some r) (hafter : p ≠ .serving)
    (hlive : r.phase ≠ .released →
      p ≠ .released ∧ c₀.streams r.streamId = c.streams r.streamId)
    (hrpcs : c₀.rpcs = c.rpcs) (hsent : c₀.sent = c.sent)
    (hkept : ∀ id j, c.streams id = some j → j ≠ h → c₀.streams id = some j)
    (hback : ∀ id j, c₀.streams id = some j → c.streams id = some j) :
    (c₀.modifyRpc h fun r => { r with phase := p }).Demultiplexes setup log := by
  refine hd.bridge (fun j s w hs => ?_) hsent ?_
  · rcases rpcs_modifyRpc (c := c₀) (hrpcs ▸ hr) hs with ⟨rfl, rfl⟩ | ⟨hne, hold⟩
    · refine ⟨r, hr, rfl, fun hs => absurd hs hafter, fun hw => ?_⟩
      cases w with
      | before => exact hw
      | during entries =>
          obtain ⟨⟨hreg, hphase⟩, hall, hprefix⟩ := hw
          obtain ⟨hp, hsame⟩ := hlive hphase
          refine ⟨⟨hsame.trans hreg, hp⟩, fun hintact => hall (.inr ?_), hprefix⟩
          exact hintact.resolve_left hafter
      | after entries =>
          exact ⟨fun hreg => hw.1 (hback _ _ hreg), fun hs => absurd hs hafter, hw.2.2⟩
    · refine ⟨s, hrpcs ▸ hold, rfl, fun hs => ⟨hs, rfl⟩, fun hw => ?_⟩
      cases w with
      | before => exact hw
      | during entries => exact ⟨⟨hkept _ j hw.1.1 hne, hw.1.2⟩, hw.2⟩
      | after entries => exact ⟨fun hreg => hw.1 (hback _ _ hreg), hw.2⟩
  · have hsame : (c₀.modifyRpc h fun r => { r with phase := p }).ids = c₀.ids :=
      ids_modifyRpc fun _ => rfl
    rw [hsame, ids, hrpcs, ids]

/-- The close callback of RPC `h` forgets its stream. -/
theorem Demultiplexes.released (hd : c.Demultiplexes setup log) (hids : c.ids.Nodup)
    (hr : c.rpcs[h]? = some r) :
    ((c.delete r.streamId).modifyRpc h fun r =>
      { r with phase := .released }).Demultiplexes setup (log ++ [.completed h]) := by
  refine ⟨fun j s hs => ?_, fun j s hs => ?_,
    hd.unopened_concat (ids_modifyRpc fun _ => rfl) rfl fun _ _ => rfl⟩
  · rw [inputWindow, Window.window_concat]
    rcases rpcs_modifyRpc (c := c.delete r.streamId) hr hs with ⟨rfl, rfl⟩ | ⟨hne, hold⟩
    · exact (hd.input j r hr).shut (by simp [ends]) rfl
        (by simp [MuxedSocket.delete, MuxedSocket.modifyRpc]) (fun hs => by (cases hs)) rfl
    · have hsid : s.streamId ≠ r.streamId := fun heq => hne (index_of_id hids hold hr heq)
      refine ((hd.input j s hold).pass (by simp [ends, hne.symm]) rfl).of_streams ?_
      simp [MuxedSocket.delete, MuxedSocket.modifyRpc, hsid]
  · rw [outputWindow, Window.window_concat]
    rcases rpcs_modifyRpc (c := c.delete r.streamId) hr hs with ⟨rfl, rfl⟩ | ⟨-, hold⟩
    · exact ((hd.output j r hr).pass rfl rfl).of_phase rfl (fun hs => by (cases hs)) rfl
    · exact ((hd.output j s hold).pass rfl rfl).of_phase rfl (fun hs => ⟨hs, rfl⟩) rfl

/-- A write of a stream that has been reset is rejected. -/
theorem Demultiplexes.writeRefused (hd : c.Demultiplexes setup log) {chunk : Bytes}
    (hr : c.rpcs[h]? = some r) (hserving : r.phase = .serving) (hreset : r.reset = true) :
    c.Demultiplexes setup (log ++ [.wrote h chunk]) := by
  refine ⟨fun j s hs => ?_, fun j s hs => ?_, hd.unopened_concat rfl rfl fun _ _ => rfl⟩
  · rw [inputWindow, Window.window_concat]
    exact (hd.input j s hs).pass rfl rfl
  · rw [outputWindow, Window.window_concat]
    by_cases hjh : h = j
    · subst hjh
      obtain rfl : r = s := Option.some.inj (hr.symm.trans hs)
      have hw := hd.output h r hr
      change c.OutputOk h r (Window.window (opens r.streamId) (silences r.streamId) log) at hw
      cases hwin : Window.window (opens r.streamId) (silences r.streamId) log with
      | before =>
          rw [hwin] at hw
          exact hw.elim
      | during entries =>
          rw [hwin] at hw
          rw [hw.1 hserving] at hreset
          cases hreset
      | after entries =>
          rw [hwin] at hw
          exact hw
    · exact (hd.output j s hs).pass rfl (by simp [chunkBy, hjh])

theorem Demultiplexes.write (hd : c.Demultiplexes setup log) (hids : c.ids.Nodup) (chunk : Bytes)
    (hr : c.rpcs[h]? = some r) (hserving : r.phase = .serving) (hreset : r.reset = false) :
    Demultiplexes setup { c with sent := c.sent ++ [encodeStreamFrame r.streamId chunk] }
      (log ++ [.wrote h chunk]) := by
  refine ⟨fun j s hs => ?_, fun j s hs => ?_, fun id hid => ?_⟩
  · rw [inputWindow, Window.window_concat]
    exact ((hd.input j s hs).pass rfl rfl).of_streams rfl
  · rw [outputWindow, Window.window_concat]
    have hw := hd.output j s hs
    by_cases hjh : h = j
    · subst hjh
      obtain rfl : r = s := Option.some.inj (hr.symm.trans hs)
      change c.OutputOk h r (Window.window (opens r.streamId) (silences r.streamId) log) at hw
      cases hwin : Window.window (opens r.streamId) (silences r.streamId) log with
      | before =>
          rw [hwin] at hw
          exact hw.elim
      | during entries =>
          rw [hwin] at hw
          rw [Window.next_during rfl]
          refine ⟨hw.1, ?_⟩
          simp [payloadFor_encode, hw.2, chunkBy]
      | after entries =>
          rw [hwin] at hw
          rw [hw.1 hserving] at hreset
          cases hreset
    · have hne : r.streamId ≠ s.streamId := fun heq => hjh (index_of_id hids hr hs heq)
      refine (hw.pass rfl (by simp [chunkBy, hjh])).of_phase rfl (fun hs => ⟨hs, rfl⟩) ?_
      simp [payloadFor_encode, hne]
  · obtain ⟨hlog, hnone⟩ := hd.unopened id hid
    have hne : r.streamId ≠ id := fun heq => hid (heq ▸ mem_ids hr)
    refine ⟨fun y hy => ?_, by simp [hnone, payloadFor_encode, hne]⟩
    rcases List.mem_append.mp hy with hy | hy
    · exact hlog y hy
    · exact List.mem_singleton.mp hy ▸ rfl

-- ============================================================================
-- Every step
-- ============================================================================

theorem observe_frame {message : Bytes} {f : StreamFrame}
    (hframe : decodeStreamFrame message = .ok f) :
    observe c (.receive message) c' =
      .frame f :: if c'.ended.isSome then [.teardown] else [] := by
  simp [observe, hframe]

theorem Demultiplexes.step (hd : c.Demultiplexes setup log) (hc : c.Owned setup) {ev : MuxedEvent}
    (hstep : Stepped setup c ev c') (hids : c'.ids.Nodup) (hold : c.ids.Nodup) :
    c'.Demultiplexes setup (log ++ observe c ev c') := by
  cases hstep with
  | malformed message err _ hframe =>
      have hobs : observe c (.receive message) (c.endLoop (.malformed err)) = [.teardown] := by
        simp [observe, hframe]
      rw [hobs]
      exact hd.endLoop _
  | start message f hopen hframe hfree hheaders =>
      have hgoes : (c.startStream f.streamId f.envelope).ended.isSome = false := by
        simp [MuxedSocket.startStream, hopen]
      rw [observe_frame hframe, if_neg (by simp [hgoes])]
      exact hd.startStream hheaders hids
  | late message f hopen hframe hfree hheaders =>
      rw [observe_frame hframe, if_neg (by simp [hopen])]
      refine hd.aside (fun j s hs hsid hreg => ?_) fun h => absurd h hheaders
      rw [hsid, hfree] at hreg
      cases hreg
  | reset message f h hopen hframe hreg hflag =>
      obtain ⟨r, hr, hrid, -⟩ := hc.registered _ h hreg
      rw [observe_frame hframe, if_neg (by simp [MuxedSocket.modifyRpc, MuxedSocket.delete, hopen])]
      exact hd.reset hold hr hrid hflag
  | enqueue message f h hopen hframe hreg hflag =>
      rw [observe_frame hframe]
      exact hd.enqueue hc hold hreg hflag hopen
  | endLoop ev cause hev _ hopen =>
      have hobs : observe c ev (c.endLoop cause) = [.teardown] := by
        rcases hev with rfl | rfl <;> rfl
      rw [hobs]
      exact hd.endLoop _
  | idle hopen =>
      have hdown := hd.endLoop .idle
      exact ⟨hdown.input, hdown.output, hdown.unopened⟩
  | abortSignal reason =>
      have hdown := hd.teardown reason
      exact ⟨hdown.input, hdown.output, hdown.unopened⟩
  | read h r hr hphase =>
      rw [observe, List.append_nil]
      exact hd.read hr hphase
  | writeRefused h chunk r hr hserving hreset => exact hd.writeRefused hr hserving hreset
  | write h chunk r hr hserving hreset => exact hd.write hold chunk hr hserving hreset
  | finishRpc h r hr hphase =>
      rw [observe, List.append_nil]
      exact hd.finishRpc hr hphase
  | readerCancelled h r hr hphase =>
      rw [observe, List.append_nil]
      exact hd.cleanup hr (by decide) (fun _ => ⟨by decide, rfl⟩) rfl rfl (fun _ _ hj _ => hj)
        fun _ _ hj => hj
  | release ev h r after hr hev hafter =>
      rcases hev with ⟨rfl, hphase⟩ | ⟨rfl, hphase⟩
      · obtain rfl : after = .released := by simp [hafter, hphase]
        exact hd.released hold hr
      · obtain rfl : after = .settled := by simp [hafter, hphase]
        rw [observe, List.append_nil]
        refine hd.cleanup hr (by decide) (fun hlive => absurd hphase hlive) rfl rfl
          (fun id j hj hne => ?_) fun id j hj => (delete_streams.mp hj).2
        refine delete_streams.mpr ⟨fun heq => hne ?_, hj⟩
        obtain ⟨s, hs, hsid, -⟩ := hc.registered id j hj
        exact index_of_id hold hs hr (hsid.trans heq)
  | finish _ =>
      rw [observe, List.append_nil]
      exact ⟨hd.input, hd.output, hd.unopened⟩

theorem nodup_of_step {ev : MuxedEvent} (hstep : Stepped setup c ev c') (hids : c'.ids.Nodup) :
    c.ids.Nodup := by
  rcases ids_step hstep with heq | ⟨-, f, -, -, -, -, -, heq⟩
  · exact heq ▸ hids
  · rw [heq] at hids
    exact hids.of_append_left

/-- A run in which each ID opens one RPC. -/
theorem demultiplexes_of_run {evs : List MuxedEvent} {p : MuxedSocket × List SocketObs}
    (hrun : ((handleMuxedBidiSocket setup).logged observe).run evs = some p)
    (hids : p.1.ids.Nodup) : p.1.Demultiplexes setup p.2 := by
  have hinv : p.1.Owned setup ∧ (p.1.ids.Nodup → p.1.Demultiplexes setup p.2) := by
    refine ((handleMuxedBidiSocket setup).logged observe).exec_invariant
      (I := fun p => p.1.Owned setup ∧ (p.1.ids.Nodup → p.1.Demultiplexes setup p.2))
      (fun p ev q hp hq => ?_) ⟨owned_init, fun _ => demultiplexes_init⟩ hrun
    obtain ⟨hstep, hlog⟩ := ((handleMuxedBidiSocket setup).logged_step).mp hq
    have hstepped := stepped hstep
    refine ⟨hp.1.step hstepped, fun hnew => ?_⟩
    have hold := nodup_of_step hstepped hnew
    rw [hlog]
    exact (hp.2 hold).step hp.1 hstepped hnew hold
  exact hinv.2 hids

end MuxedSocket

-- ============================================================================
-- Main results
-- ============================================================================

/-- The handlers' side of a connection whose streams have different IDs: what
    the handler of a stream has been given is a beginning of the stream's
    envelopes, and all of them while it takes envelopes, queued ones
    included, unless its bridge has cancelled the readable; and what the
    connection has of the stream are the chunks that the handler wrote before
    the stream was reset or torn down. -/
theorem streams_demultiplexed {setup : MuxedSetup} {evs : List MuxedEvent}
    {c : MuxedSocket} {log : List SocketObs}
    (hrun : ((handleMuxedBidiSocket setup).logged observe).run evs = some (c, log))
    (hids : (c.rpcs.map (·.streamId)).Nodup) (h : Nat) (r : Rpc) (hr : c.rpcs[h]? = some r) :
    r.readable.received <+: inputOf r.streamId h log ∧
      (∀ entries, inputWindow r.streamId h log = .during entries →
        r.phase = .serving ∨ setup.cancelsSource = false →
          r.readable.received ++ r.readable.queue = inputOf r.streamId h log) ∧
      c.sent.filterMap (payloadFor r.streamId) = outputOf r.streamId h log := by
  have hd := MuxedSocket.demultiplexes_of_run hrun hids
  have hin := hd.input h r hr
  have hout := hd.output h r hr
  unfold inputOf outputOf
  refine ⟨?_, fun entries hwin hintact => ?_, ?_⟩
  · cases hwin : inputWindow r.streamId h log with
    | before =>
        rw [hwin] at hin
        exact hin.elim
    | during entries | after entries =>
        rw [hwin] at hin
        exact hin.2.2
  · rw [hwin] at hin ⊢
    exact hin.2.1 hintact
  · cases hwin : outputWindow r.streamId log with
    | before =>
        rw [hwin] at hout
        exact hout.elim
    | during entries | after entries =>
        rw [hwin] at hout
        exact hout.2

/-- Two streams whose frames alternate; the first is reset after its handler
    has written one chunk, and writes another. -/
def alternatingStreams : List MuxedEvent := [
  .receive (encodeStreamFrame 1 (encodeEnvelope flagEnvelopeHeaders [])),
  .receive (encodeStreamFrame 3 (encodeEnvelope flagEnvelopeHeaders [])),
  .receive (encodeStreamFrame 1 (encodeEnvelope 0 [7])), .rpcRead 0, .rpcWrite 0 [8],
  .receive (encodeStreamFrame 1 (encodeEnvelope flagEnvelopeReset [])), .rpcWrite 0 [9]]

theorem alternatingStreams_demultiplexed :
    ∃ c log r, ((handleMuxedBidiSocket {}).logged observe).run alternatingStreams = some (c, log) ∧
      c.rpcs[0]? = some r ∧ r.readable.received <+: inputOf r.streamId 0 log ∧
      c.sent.filterMap (payloadFor r.streamId) = outputOf r.streamId 0 log ∧
      outputOf r.streamId 0 log = [[8]] := by
  have h := @streams_demultiplexed {} alternatingStreams _ _ rfl (by decide) 0 _ rfl
  exact ⟨_, _, _, rfl, rfl, h.1, h.2.2, rfl⟩

end Core
end BidiWeb
