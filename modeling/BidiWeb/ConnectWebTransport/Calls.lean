/-
  BidiWeb.ConnectWebTransport.Calls

  The calls of a client and the handlers of a server on the streams of one
  WebTransport session.
-/

import BidiWeb.BidiProtocol.WholeResponse
import BidiWeb.ConnectWebTransport.Session

namespace BidiWeb
namespace ConnectWebTransport

open BidiWeb.Lib
open BidiWeb.BidiProtocol

variable {κ κ' μ : Type}

/-- What a `ClientStream` has done to its stream, until a `ReadEnvelope` fails. -/
structure Calling (cs : ClientStream κ) (s : BidiStream) : Prop where
  wrote : cs.session.written = s.up.wrote
  read : cs.session.received = s.down.read

/-- What `HandleRPC` has done to its stream. -/
structure Handling (after : Session κ') (s : BidiStream) : Prop where
  wrote : after.written = s.down.wrote
  read : after.received = s.up.read

/-- However the streams of a session interleave, the handler of a stream
    receives what its caller sends, and a streaming caller what the handler
    sends. -/
theorem sessionCalls_transfer (evs : List SessionEvent) {s : WebTransportSession}
    (hrun : session.run evs = some s) {i : Nat} {stream : BidiStream}
    (hstream : s.streams[i]? = some stream) {cfg : ClientConfig κ μ} {srv : ServerConfig κ' μ}
    {codec : Codec μ} {cs : ClientStream κ} {log : List (Transfer μ)} {conn : κ'}
    {after : Session κ'} (hagreed : Agreed cfg srv codec) (hcalls : Calls cfg cs log)
    (hcalling : Calling cs stream) (hserve : handleRPC srv { conn := conn } = some after)
    (hhandling : Handling after stream) :
    Exchanged cfg cs.session.reads log (rpcTransfers srv { conn := conn }) := by
  have hserved := (session_inv hrun i stream hstream).served
  refine exchanged hagreed hcalls hserve ?_ ?_
  · have hnoEnd : ∀ env ∈ stream.up.read, env.flag ≠ flagEnvelopeEndStream := by
      intro env henv
      apply hcalls.noEnd hagreed.unlimited.1
      rw [hcalling.wrote]
      exact hserved.up.le.subset henv
    rw [hhandling.read, hcalling.wrote, List.filter_eq_self.mpr (by simpa using hnoEnd)]
    exact hserved.up.le
  · rw [hcalling.read, hhandling.wrote]
    exact hserved.down.le

/-- An envelope of the first stream on its way, in four pieces. -/
def goes (pipe : Nat → PipeEvent → SessionEvent) (env : Envelope) : List SessionEvent := [
  pipe 0 (.writeEnvelope env), pipe 0 (.accept 5), pipe 0 (.accept env.payload.length),
  pipe 0 .readEnvelope, pipe 0 (.take 3), pipe 0 (.take 2), pipe 0 (.take env.payload.length)]

def streamedSession : List SessionEvent :=
  [.newClientStream, .acceptStream 0] ++ streamedRequest.flatMap (goes .up) ++
    streamedResponse.flatMap (goes .down)

theorem streamedSession_transfer :
    (streamed streamedResponse).map (fun p => receivedMessages p.2) =
      some (sentMessages (rpcTransfers echoServer { conn := streamedRequest })) := by
  have hstreams : (session.run streamedSession).map (fun s =>
      s.streams.map fun stream => (stream.up.wrote, stream.up.read)) =
        some [(streamedRequest, streamedRequest)] := by
    decide +kernel
  have hanswers : (session.run streamedSession).map (fun s =>
      s.streams.map fun stream => (stream.down.wrote, stream.down.read)) =
        some [(streamedResponse, streamedResponse)] := by
    decide +kernel
  obtain ⟨cs, log, after, hops, hserve, hclient, hserver, env, hread, hend⟩ := exists_streamed
  obtain ⟨s, hrun, hstreams⟩ := Option.map_eq_some_iff.mp hstreams
  rw [hrun, Option.map_some, Option.some.injEq] at hanswers
  obtain ⟨stream, hstream, hup⟩ := List.map_eq_singleton_iff.mp hstreams
  rw [hstream, List.map_singleton, List.singleton_inj] at hanswers
  obtain ⟨hwrote, hread'⟩ := Prod.mk.inj hup
  obtain ⟨hwrote', hread''⟩ := Prod.mk.inj hanswers
  have hget : s.streams[0]? = some stream := by rw [hstream]; rfl
  have hexchanged := sessionCalls_transfer streamedSession hrun hget agreed_streaming
    ⟨{}, [], _, _, hops⟩ ⟨hclient.1.trans hwrote.symm, hclient.2.trans hread''.symm⟩ hserve
    ⟨hserver.1.trans hwrote'.symm, hserver.2.trans hread'.symm⟩
  rw [hops, Option.map_some]
  exact congrArg some (hexchanged.whole rfl env hread hend)

end ConnectWebTransport
end BidiWeb
