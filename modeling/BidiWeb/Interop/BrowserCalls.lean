/-
  BidiWeb.Interop.BrowserCalls

  The streaming calls of a browser and the handlers of Go servers on top of
  the connections between them: what `iterate()` yields is what the handler
  has sent, however many other calls share the socket.
-/

import BidiWeb.Interop.BrowserRpc
import BidiWeb.Interop.Calls

namespace BidiWeb
namespace Web

open BidiWeb.Core (JsError)
open BidiWeb.Lib

/-- Of chunks that are whole envelopes, the reader hands on the first. -/
theorem EnvelopeReader.Inv.consumed_le {r : EnvelopeReader}
    {readable : ReadableStream Bytes JsError} (hr : r.Inv readable) {envs : List Envelope}
    (hchunks : readable.received <+: envs.map Interop.envelopeBytes)
    (hframed : ∀ env ∈ envs, env.payload.length < 2 ^ 32) : r.consumed <+: envs := by
  have hhandled : r.handledChunks readable <+: envs.map Interop.envelopeBytes :=
    ((List.take_prefix _ _).filterMap _).trans hchunks
  obtain ⟨front, hfront, heq⟩ := List.prefix_map_iff.mp hhandled
  have hbytes : (front.map Interop.envelopeBytes).flatten = encodeEnvelopes front := rfl
  have hwhole : completeEnvelopes (encodeEnvelopes front) = front :=
    completeEnvelopes_of_whole
      (wholeEnvelopes_iff.mpr ⟨rfl, fun env henv => hframed env (hfront.subset henv)⟩)
  have haccount := hr.account []
  rw [heq, hbytes, List.append_nil, hwhole, List.append_assoc] at haccount
  exact (haccount ▸ List.prefix_append _ _).trans hfront

end Web

namespace Interop

open BidiWeb.BidiProtocol (Codec ServerConfig handleRPC)
open BidiWeb.ConnectWebSocket (StreamObject goServer)
open BidiWeb.Lib (Machine star star_inv)
open BidiWeb.Web (Ending browserClient iterateLoop)

variable {κ μ : Type}

/-- What the `close` of a writable puts on the socket. -/
def requestEnd : Envelope := ⟨flagEnvelopeEndStream, []⟩

/-- The request of a call has been put on the socket of stream `h`, as far as
    the writer and the socket have got. -/
def Requesting (call : StreamCall μ) (sent : List μ) (c : Web.Calls) (h : Nat)
    (s : Web.Stream) : Prop :=
  ∃ written, call.Requested sent written ∧
    c.mux.putOn h s.socket <+: (written ++ [requestEnd]).map envelopeBytes

/-- The end of a request aside, what its server has read is what was written. -/
theorem StreamCall.Requested.filter_le {call : StreamCall μ} {sent : List μ}
    {written received : List Envelope} (h : call.Requested sent written)
    (hle : received <+: written ++ [requestEnd]) :
    List.IsPrefix (received.filter fun env => env.flag ≠ flagEnvelopeEndStream) written := by
  have hnoEnd : ∀ env ∈ written, env.flag ≠ flagEnvelopeEndStream := by
    cases h with
    | unopened => exact nofun
    | opened sent hencode =>
        intro env henv
        rcases List.mem_cons.mp henv with rfl | henv
        · exact (by decide : flagEnvelopeHeaders ≠ flagEnvelopeEndStream)
        · obtain ⟨msg, -, rfl⟩ := List.mem_map.mp henv
          exact (by decide : flagEnvelopeData ≠ flagEnvelopeEndStream)
  have hall : (written ++ [requestEnd]).filter (fun env => env.flag ≠ flagEnvelopeEndStream) =
      written := by
    rw [List.filter_append, List.filter_eq_self.mpr (by simpa using hnoEnd)]
    exact List.append_nil written
  have hfiltered := hle.filter fun env => env.flag ≠ flagEnvelopeEndStream
  rw [hall] at hfiltered
  exact hfiltered

/-- Whatever else goes on in the mux and at its servers, the handler of a
    stream receives what its caller sends, and the caller what the handler
    sends. -/
theorem browserCalls_transfer [Web.ConnectPackage] [Web.ConnectPackage.Lawful]
    (closeWhenIdle : Bool) (evs) {p}
    (hrun : (star (browserClient closeWhenIdle) goServer).run evs = some p)
    (hlt : p.hub.mux.streams.length < 2 ^ 32) {h : Nat} {s : Web.Stream}
    (hs : p.hub.mux.streams[h]? = some s) {a : StreamObject}
    (ha : a ∈ (p.peer s.socket).objs) (hid : a.stream.id = Web.wireId h)
    (hframed : ∀ env ∈ a.wrote, env.payload.length < 2 ^ 32) {call : StreamCall μ}
    {srv : ServerConfig κ μ} {codec : Codec μ} {sent : List μ} {conn : κ}
    {after : BidiProtocol.Session κ} (hagreed : call.Agreed srv codec)
    (hrequesting : Requesting call sent p.hub h s)
    (hserve : handleRPC srv { conn := conn } = some after) (hhandling : Handling after a)
    (ending : Ending) :
    BrowserExchanged call srv codec conn sent s.response.consumed
      (fun es => iterateLoop call.parse call.endStreamFromJson ending es {}) call.told := by
  have hinv := star_inv (Web.browserClient_reads closeWhenIdle)
    ConnectWebSocket.goServer_upholds
    (fun _ _ _ ht hheard _ hm => ht.answerer.asks hheard hm) hrun
  have hjoined := Lib.joined (hinv.hub.1.caller hlt s.socket) (hinv.peer s.socket).answerer
    (hinv.up s.socket) (hinv.down s.socket) (hinv.hub.1.opensFirst s.socket)
  obtain ⟨j, hj⟩ := List.getElem?_of_mem ha
  have hpaired := hjoined.paired (p.hub.session h s)
    (Web.Calls.mem_sessionsOn.mpr ⟨h, s, hs, rfl, rfl⟩) ((p.peer s.socket).session j a)
    (ConnectWebSocket.MuxConn.mem_sessions.mpr ⟨j, a, hj, rfl⟩) hid
  obtain ⟨written, hrequested, hput⟩ := hrequesting
  refine browserExchanged hagreed (yields_iterateLoop call ending {}) hrequested hserve ?_ ?_
  · rw [hhandling.returned]
    exact hrequested.filter_le
      ((List.prefix_map_iff_of_injective envelopeBytes_injective).mp (hpaired.up.trans hput))
  · rw [hhandling.wrote]
    exact (hinv.hub.2 s (List.mem_of_getElem? hs)).response.consumed_le hpaired.down hframed

/-- A call of a browser whose messages are bytes already. -/
def echoCall : StreamCall Bytes where
  header := ({} : Lib.Headers).append Core.headerContentType
    ⟨Lib.js "application/connect+proto", by decide⟩
  path := Lib.js "/echo.Echo/Echo"
  serialize := id
  parse := .ok
  endStreamFromJson := fun _ => .ok {}

def echoCallHeaders : Bytes :=
  match Core.encodeHeadersFrame echoCall.header (pathHeader echoCall.path) with
  | .ok headersBytes => headersBytes
  | .error _ => []

/-- What has been written of the request. -/
def echoCallRequest : List Envelope :=
  [⟨flagEnvelopeHeaders, echoCallHeaders⟩, echoCall.message [1, 2]]

def echoCallResponse : List Envelope :=
  (handleRPC BidiProtocol.echoServer { conn := echoCallRequest }).elim []
    BidiProtocol.Session.written

theorem agreed_echoCall :
    echoCall.Agreed BidiProtocol.echoServer BidiProtocol.plainDefaults.binary where
  path := by decide +kernel
  negotiated := by
    refine ⟨⟨Lib.js "application/connect+proto", by decide⟩, by decide +kernel, ?_⟩
    have htext : Lib.Unicode.decodeUtf16 (Lib.js "application/connect+proto") =
        "application/connect+proto".toList := by
      decide +kernel
    simp only [htext]
    rfl
  accept := by decide +kernel
  unnamed := rfl
  serialize := fun _ => rfl
  parse := fun _ _ h => by
    cases h
    rfl
  unlimited := by decide

/-- The first stream puts an envelope on its socket, and the handler reads it. -/
def browserSends (ev : Web.CallEvent) (env : Envelope) :
    List (Web.CallEvent ⊕ Nat × ConnectWebSocket.WireEvent) := [
  .inl ev, .inr (0, .message (ConnectWebSocket.Frame.bytes ⟨1, env⟩)),
  .inr (0, .other .advance), .inr (0, .other .advance), .inr (0, .other (.read 0))]

/-- The handler writes an envelope, and the envelope reader hands it on. -/
def browserReads (env : Envelope) : List (Web.CallEvent ⊕ Nat × ConnectWebSocket.WireEvent) := [
  .inr (0, .other (.write 0 env)), .inr (0, .other (.task 0)),
  .inl (.mux (.onmessage 0 (ConnectWebSocket.Frame.bytes ⟨1, env⟩))), .inl (.mux (.read 0)),
  .inl (.mux (.pull 0)), .inl (.mux (.settle 0))]

def browserEcho : List (Web.CallEvent ⊕ Nat × ConnectWebSocket.WireEvent) :=
  [.inl (.mux .openStream), .inl (.mux (.onopen 0)), .inl (.mux (.resume 0))] ++
    browserSends (.headers 0 echoCallHeaders) ⟨flagEnvelopeHeaders, echoCallHeaders⟩ ++
    browserSends (.message 0 [1, 2]) (echoCall.message [1, 2]) ++
    echoCallResponse.flatMap browserReads

open Web.Connectrpc in
theorem browserEcho_transfer :
    (iterateLoop echoCall.parse echoCall.endStreamFromJson .waiting echoCallResponse.tail
        {}).messages =
      BidiProtocol.sentMessages
        (BidiProtocol.rpcTransfers BidiProtocol.echoServer { conn := echoCallRequest }) := by
  have hstreams : ((star (browserClient false) goServer).run browserEcho).map (fun p =>
      p.hub.mux.streams.map fun s => (s.socket, p.hub.mux.putOn 0 0, s.response.consumed)) =
        some [(0, echoCallRequest.map envelopeBytes, echoCallResponse)] := by
    decide +kernel
  have hpeer : ((star (browserClient false) goServer).run browserEcho).map (fun p =>
      (p.peer 0).objs.map fun a => (a.stream.id, a.wrote, a.returned)) =
        some [(1, echoCallResponse, echoCallRequest)] := by
    decide +kernel
  have hserve : (handleRPC BidiProtocol.echoServer { conn := echoCallRequest }).map (fun after =>
      (after.written, after.received)) = some (echoCallResponse, echoCallRequest) := by
    decide +kernel
  have hresponse : (∀ env ∈ echoCallResponse, env.payload.length < 2 ^ 32) ∧
      ∃ env ∈ echoCallResponse.tail, env.flag = flagEnvelopeEndStream := by
    decide +kernel
  have hencode : Core.encodeHeadersFrame echoCall.header (pathHeader echoCall.path) =
      .ok echoCallHeaders := by
    decide +kernel
  obtain ⟨p, hrun, hstreams⟩ := Option.map_eq_some_iff.mp hstreams
  rw [hrun, Option.map_some, Option.some.injEq] at hpeer
  obtain ⟨after, hserve, hsession⟩ := Option.map_eq_some_iff.mp hserve
  obtain ⟨s, hs, hstream⟩ := List.map_eq_singleton_iff.mp hstreams
  obtain ⟨a, ha, hanswer⟩ := List.map_eq_singleton_iff.mp hpeer
  simp only [Prod.mk.injEq] at hstream hanswer hsession
  obtain ⟨hsocket, hput, hread⟩ := hstream
  have hhandling : Handling after a :=
    ⟨hsession.1.trans hanswer.2.1.symm, hsession.2.trans hanswer.2.2.symm⟩
  have hrequesting : Requesting echoCall [[1, 2]] p.hub 0 s := by
    refine ⟨echoCallRequest, .opened [[1, 2]] hencode, ?_⟩
    rw [hsocket, hput, List.map_append]
    exact List.prefix_append _ _
  have hlt : p.hub.mux.streams.length < 2 ^ 32 := by
    rw [hs, List.length_singleton]
    decide
  have hexchanged := browserCalls_transfer false browserEcho hrun hlt
    (h := 0) (by rw [hs]; rfl) (by rw [hsocket, ha]; exact List.mem_singleton_self a) hanswer.1
    (hanswer.2.1 ▸ hresponse.1) agreed_echoCall hrequesting hserve hhandling .waiting
  rw [hread] at hexchanged
  obtain ⟨env, henv, hend⟩ := hresponse.2
  exact (hexchanged.whole _ List.prefix_rfl env henv hend).1

end Interop
end BidiWeb
