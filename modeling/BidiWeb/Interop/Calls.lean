/-
  BidiWeb.Interop.Calls

  The calls of Go clients and the handlers of Go servers on top of the
  connections between them: what a handler is given is what its caller has
  sent, however many other calls share the connection.
-/

import BidiWeb.BidiProtocol.WholeResponse
import BidiWeb.Interop.Connections

namespace BidiWeb
namespace Interop

open BidiWeb.Lib (Machine star star_inv)
open BidiWeb.BidiProtocol (Agreed ClientConfig ClientStream Codec Exchanged ServerConfig Transfer
  handleRPC receivedMessages rpcTransfers sentMessages streamed streamedRequest streamedResponse)
open BidiWeb.ConnectWebSocket (Dialed HeadersFirst StreamObject goClient goServer)

variable {κ κ' μ : Type}

/-- What the calls on a `ClientStream` have done to its stream. -/
structure Calling (cs : ClientStream κ) (o : StreamObject) : Prop where
  /-- `CloseSend` puts an end-stream of its own on the stream. -/
  wrote : cs.session.written = o.wrote.filter fun env => env.flag ≠ flagEnvelopeEndStream
  returned : cs.session.received = o.returned

/-- What `HandleRPC` has done to its stream. -/
structure Handling (after : BidiProtocol.Session κ') (a : StreamObject) : Prop where
  wrote : after.written = a.wrote
  returned : after.received = a.returned

theorem envelopeBytes_injective : Function.Injective envelopeBytes := by
  intro e e' h
  obtain ⟨hflag, hrest⟩ := List.cons_eq_cons.mp h
  have hlen : (Lib.putUint32 (UInt32.ofNat e.payload.length)).length =
      (Lib.putUint32 (UInt32.ofNat e'.payload.length)).length := by
    rw [Lib.length_putUint32, Lib.length_putUint32]
  cases e
  cases e'
  obtain rfl := hflag
  obtain rfl := (List.append_inj hrest hlen).2
  rfl

/-- What either end has been given of the envelopes of the other one. -/
theorem returned_le {c s : ConnectWebSocket.MuxConn} {up down sentUp sentDown : List Bytes}
    (hjoined : Lib.Joined streamOf c.sessions s.sessions up down sentUp sentDown)
    {o a : StreamObject} (ho : o ∈ c.objs) (ha : a ∈ s.objs)
    (hid : a.stream.id = o.stream.id) :
    a.returned <+: o.wrote ∧ o.returned <+: a.wrote := by
  obtain ⟨h, ho⟩ := List.getElem?_of_mem ho
  obtain ⟨j, ha⟩ := List.getElem?_of_mem ha
  have hpaired := hjoined.paired (c.session h o)
    (ConnectWebSocket.MuxConn.mem_sessions.mpr ⟨h, o, ho, rfl⟩) (s.session j a)
    (ConnectWebSocket.MuxConn.mem_sessions.mpr ⟨j, a, ha, rfl⟩) hid
  exact ⟨(List.prefix_map_iff_of_injective envelopeBytes_injective).mp hpaired.up,
    (List.prefix_map_iff_of_injective envelopeBytes_injective).mp hpaired.down⟩

/-- Whatever else goes on in the transport and at its servers, the handler of a
    stream receives what its caller sends, and a streaming caller what the
    handler sends. -/
theorem goCalls_transfer (url : String) (connectionPerStream : Bool) (evs) {p}
    (hrun : (star (goClient url connectionPerStream) goServer).run evs = some p) {k : Nat}
    {d : Dialed} (hd : p.hub.conns[k]? = some d) (hlt : d.mc.objs.length < 2 ^ 32)
    (hopens : ∀ o ∈ d.mc.objs, HeadersFirst o.wrote) {o a : StreamObject} (ho : o ∈ d.mc.objs)
    (ha : a ∈ (p.peer k).objs) (hid : a.stream.id = o.stream.id) {cfg : ClientConfig κ μ}
    {srv : ServerConfig κ' μ} {codec : Codec μ} {cs : ClientStream κ} {log : List (Transfer μ)}
    {conn : κ'} {after : BidiProtocol.Session κ'} (hagreed : Agreed cfg srv codec)
    (hcalls : BidiProtocol.Calls cfg cs log) (hcalling : Calling cs o)
    (hserve : handleRPC srv { conn := conn } = some after) (hhandling : Handling after a) :
    Exchanged cfg cs.session.reads log (rpcTransfers srv { conn := conn }) := by
  have hinv := star_inv (ConnectWebSocket.goClient_upholds url connectionPerStream)
    ConnectWebSocket.goServer_upholds
    (fun _ _ _ ht hheard _ hm => ht.answerer.asks hheard hm) hrun
  have hjoined := joined_goClient hinv.hub hd hlt hopens (hinv.up k) (hinv.peer k).answerer
    (hinv.down k)
  obtain ⟨hup, hdown⟩ := returned_le hjoined ho ha hid
  refine BidiProtocol.exchanged hagreed hcalls hserve ?_ ?_
  · rw [hcalling.wrote, hhandling.returned]
    exact hup.filter _
  · rw [hcalling.returned, hhandling.wrote]
    exact hdown

/-- An envelope of the first stream on its way, from `WriteEnvelope` to
    `ReadEnvelope`. -/
def goesUp (env : Envelope) :
    List (ConnectWebSocket.TransportEvent ⊕ Nat × ConnectWebSocket.WireEvent) := [
  .inl (.conn 0 (.other (.write 0 env))), .inl (.conn 0 (.other (.task 0))),
  .inr (0, .message (ConnectWebSocket.Frame.bytes ⟨1, env⟩)), .inr (0, .other .advance),
  .inr (0, .other .advance), .inr (0, .other (.read 0))]

def goesDown (env : Envelope) :
    List (ConnectWebSocket.TransportEvent ⊕ Nat × ConnectWebSocket.WireEvent) := [
  .inr (0, .other (.write 0 env)), .inr (0, .other (.task 0)),
  .inl (.conn 0 (.message (ConnectWebSocket.Frame.bytes ⟨1, env⟩))),
  .inl (.conn 0 (.other .advance)), .inl (.conn 0 (.other .advance)),
  .inl (.conn 0 (.other (.read 0)))]

def streamedCall : List (ConnectWebSocket.TransportEvent ⊕ Nat × ConnectWebSocket.WireEvent) :=
  [.inl (.call (.newClientStream false)), .inl (.lock 0), .inl (.advance 0), .inl (.dialed 0),
    .inl (.advance 0)] ++ streamedRequest.flatMap goesUp ++ streamedResponse.flatMap goesDown

theorem streamedCall_transfer :
    (streamed streamedResponse).map (fun p => receivedMessages p.2) =
      some (sentMessages (rpcTransfers BidiProtocol.echoServer { conn := streamedRequest })) := by
  have hconns : ((star (goClient "ws://host" false) goServer).run streamedCall).map (fun p =>
      p.hub.conns.map fun d => d.mc.objs.map fun o => (o.stream.id, o.wrote, o.returned)) =
        some [[(1, streamedRequest, streamedResponse)]] := by
    decide +kernel
  have hpeer : ((star (goClient "ws://host" false) goServer).run streamedCall).map (fun p =>
      (p.peer 0).objs.map fun o => (o.stream.id, o.wrote, o.returned)) =
        some [(1, streamedResponse, streamedRequest)] := by
    decide +kernel
  have hrequest : streamedRequest.filter (fun env => env.flag ≠ flagEnvelopeEndStream) =
      streamedRequest ∧ HeadersFirst streamedRequest := by
    decide +kernel
  obtain ⟨cs, log, after, hops, hserve, hclient, hserver, env, hread, hend⟩ :=
    BidiProtocol.exists_streamed
  obtain ⟨p, hrun, hconns⟩ := Option.map_eq_some_iff.mp hconns
  rw [hrun, Option.map_some, Option.some.injEq] at hpeer
  obtain ⟨d, hd, hobjs⟩ := List.map_eq_singleton_iff.mp hconns
  obtain ⟨o, ho, hstream⟩ := List.map_eq_singleton_iff.mp hobjs
  obtain ⟨a, ha, hanswer⟩ := List.map_eq_singleton_iff.mp hpeer
  simp only [Prod.mk.injEq] at hstream hanswer
  have hget : p.hub.conns[0]? = some d := by rw [hd]; rfl
  have hlt : d.mc.objs.length < 2 ^ 32 := by
    rw [ho, List.length_singleton]
    decide
  have hopens : ∀ o' ∈ d.mc.objs, HeadersFirst o'.wrote := by
    intro o' ho'
    rw [ho] at ho'
    rw [List.mem_singleton.mp ho', hstream.2.1]
    exact hrequest.2
  have hcalling : Calling cs o := by
    constructor
    · rw [hstream.2.1, hrequest.1, hclient.1]
    · rw [hclient.2, hstream.2.2]
  have hhandling : Handling after a := by
    constructor
    · rw [hserver.1, hanswer.2.1]
    · rw [hserver.2, hanswer.2.2]
  have hexchanged := goCalls_transfer "ws://host" false streamedCall hrun hget hlt hopens
    (ho ▸ List.mem_singleton_self o) (ha ▸ List.mem_singleton_self a)
    (hanswer.1.trans hstream.1.symm) BidiProtocol.agreed_streaming ⟨{}, [], _, _, hops⟩ hcalling
    hserve hhandling
  rw [hops, Option.map_some]
  exact congrArg some (hexchanged.whole rfl env hread hend)

end Interop
end BidiWeb
