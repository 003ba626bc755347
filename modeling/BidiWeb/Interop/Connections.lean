/-
  BidiWeb.Interop.Connections

  Either client against either server: on every connection the client has
  ever dialled, over every interleaving of the two ends and of the messages
  between them.

  The clients rely on no more than that a server answers the IDs it was
  given, and the servers on each ID being opened once; each end does so
  whatever the other one does, and neither is proved against the other.
-/

import BidiWeb.Interop.BrowserClient
import BidiWeb.Interop.GoClient
import BidiWeb.Interop.GoServer
import BidiWeb.Interop.TsServer

namespace BidiWeb
namespace Interop

open BidiWeb.Lib
open BidiWeb.ConnectWebSocket (Dialed HeadersFirst Transport goClient goServer)
open BidiWeb.Core (MuxedSetup tsServer)
open BidiWeb.Web (ConnectPackage browserClient)

-- ============================================================================
-- The Go client
-- ============================================================================

section

variable (url : String) (connectionPerStream : Bool)

/-- What holds of a connection whose streams are numbered without repetition
    and whose users send their headers first. -/
theorem joined_goClient {sentDown : List Bytes} {as : List (Session UInt32 Bytes)}
    {t : Transport} {up down : Nat → List Bytes} (ht : t.Asks down) {k : Nat} {d : Dialed}
    (hd : t.conns[k]? = some d) (hlt : d.mc.objs.length < 2 ^ 32)
    (hopens : ∀ o ∈ d.mc.objs, HeadersFirst o.wrote) (hup : up k <+: t.messages k)
    (hanswer : Answerer streamOf opensStream as sentDown (up k)) (hdown : down k <+: sentDown) :
    Joined streamOf d.mc.sessions as (up k) (down k) d.mc.messages sentDown := by
  rw [Transport.messages_of_get hd] at hup
  exact joined ((ht.conns k d hd).caller hlt) hanswer hup hdown
    (ConnectWebSocket.MuxConn.opensFirst_sessions hopens)

theorem goClient_goServer (evs) {p}
    (hrun : (star (goClient url connectionPerStream) goServer).run evs = some p) {k : Nat}
    {d : Dialed} (hd : p.hub.conns[k]? = some d) (hlt : d.mc.objs.length < 2 ^ 32)
    (hopens : ∀ o ∈ d.mc.objs, HeadersFirst o.wrote) :
    Joined streamOf d.mc.sessions (p.peer k).sessions (p.up k) (p.down k) d.mc.messages
      (p.peer k).messages := by
  have hinv := star_inv (ConnectWebSocket.goClient_upholds url connectionPerStream)
    ConnectWebSocket.goServer_upholds
    (fun _ _ _ ht hheard _ hm => ht.answerer.asks hheard hm) hrun
  exact joined_goClient hinv.hub hd hlt hopens (hinv.up k) (hinv.peer k).answerer (hinv.down k)

/-- A call with a response on its way to the reader. -/
def goCall : List (ConnectWebSocket.TransportEvent ⊕ Nat × ConnectWebSocket.WireEvent) := [
  .inl (.call (.newClientStream true)), .inl (.lock 0), .inl (.advance 0), .inl (.dialed 0),
  .inl (.advance 0), .inl (.conn 0 (.other (.write 0 ⟨6, []⟩))), .inl (.conn 0 (.other (.task 0))),
  .inr (0, .message [0, 0, 0, 1, 6, 0, 0, 0, 0]), .inr (0, .other .advance),
  .inr (0, .other .advance), .inr (0, .other (.write 0 ⟨0, [9]⟩)), .inr (0, .other (.task 0)),
  .inl (.conn 0 (.message [0, 0, 0, 1, 0, 0, 0, 0, 1, 9]))]

theorem goCall_joined :
    ∃ p d, (star (goClient "ws://host" false) goServer).run goCall = some p ∧
      p.hub.conns[0]? = some d ∧
      Joined streamOf d.mc.sessions (p.peer 0).sessions (p.up 0) (p.down 0) d.mc.messages
        (p.peer 0).messages := by
  have hrun : (star (goClient "ws://host" false) goServer).run goCall = some _ := rfl
  refine ⟨_, _, hrun, rfl, goClient_goServer "ws://host" false goCall hrun rfl (by decide) ?_⟩
  intro o ho
  obtain rfl := List.mem_singleton.mp ho
  exact ⟨rfl, nofun⟩

theorem goClient_tsServer (setup : MuxedSetup) (evs) {p}
    (hrun : (star (goClient url connectionPerStream) (tsServer setup)).run evs = some p) {k : Nat}
    {d : Dialed} (hd : p.hub.conns[k]? = some d) (hlt : d.mc.objs.length < 2 ^ 32)
    (hopens : ∀ o ∈ d.mc.objs, HeadersFirst o.wrote) :
    Joined streamOf d.mc.sessions ((p.peer k).1.sessions (p.peer k).2) (p.up k) (p.down k)
      d.mc.messages (p.peer k).1.sent := by
  have hinv := star_inv (ConnectWebSocket.goClient_upholds url connectionPerStream)
    (Core.tsServer_upholds setup) (fun _ _ _ ht hheard _ hm => ht.answerer.asks hheard hm) hrun
  exact joined_goClient hinv.hub hd hlt hopens (hinv.up k) (hinv.peer k).answerer (hinv.down k)

/-- Two calls on connections of their own, one of them answered. -/
def goTsCalls : List (ConnectWebSocket.TransportEvent ⊕ Nat × Core.MuxedEvent) := [
  .inl (.call (.newClientStream false)), .inl (.call (.newClientStream false)),
  .inl (.dialed 1), .inl (.dialed 0), .inl (.advance 0), .inl (.advance 1),
  .inl (.conn 0 (.other (.write 0 ⟨6, []⟩))), .inl (.conn 1 (.other (.write 0 ⟨6, []⟩))),
  .inl (.conn 1 (.other (.task 0))), .inr (1, .receive [0, 0, 0, 1, 6, 0, 0, 0, 0]),
  .inr (1, .rpcRead 0), .inr (1, .rpcWrite 0 [0, 0, 0, 0, 1, 9]),
  .inl (.conn 1 (.message [0, 0, 0, 1, 0, 0, 0, 0, 1, 9]))]

theorem goTsCalls_joined :
    ∃ p d, (star (goClient "ws://host" true) (tsServer {})).run goTsCalls = some p ∧
      p.hub.conns[1]? = some d ∧
      Joined streamOf d.mc.sessions ((p.peer 1).1.sessions (p.peer 1).2) (p.up 1) (p.down 1)
        d.mc.messages (p.peer 1).1.sent := by
  have hrun : (star (goClient "ws://host" true) (tsServer {})).run goTsCalls = some _ := rfl
  refine ⟨_, _, hrun, rfl, goClient_tsServer "ws://host" true {} goTsCalls hrun rfl (by decide) ?_⟩
  intro o ho
  obtain rfl := List.mem_singleton.mp ho
  exact ⟨rfl, nofun⟩

end

-- ============================================================================
-- The browser
-- ============================================================================

section

variable (closeWhenIdle : Bool)

theorem browser_goServer [ConnectPackage] (evs) {p}
    (hrun : (star (browserClient closeWhenIdle) goServer).run evs = some p)
    (hlt : p.hub.mux.streams.length < 2 ^ 32) (k : Nat) :
    Joined streamOf (p.hub.sessionsOn k) (p.peer k).sessions (p.up k) (p.down k)
      (p.hub.mux.messages k) (p.peer k).messages := by
  have hinv := star_inv (Web.browserClient_upholds closeWhenIdle)
    ConnectWebSocket.goServer_upholds
    (fun _ _ _ ht hheard _ hm => ht.answerer.asks hheard hm) hrun
  exact joined (hinv.hub.caller hlt k) (hinv.peer k).answerer (hinv.up k) (hinv.down k)
    (hinv.hub.opensFirst k)

/-- The first socket closes; the second call is answered on the next one. -/
def browserGoCalls : List (Web.CallEvent ⊕ Nat × ConnectWebSocket.WireEvent) := [
  .inl (.mux .openStream), .inl (.mux (.onopen 0)), .inl (.mux (.resume 0)), .inl (.headers 0 []),
  .inl (.mux (.peerClosing 0)), .inl (.mux (.onclose 0 "")), .inl (.mux .openStream),
  .inl (.mux (.onopen 1)), .inl (.mux (.resume 0)), .inl (.headers 1 []),
  .inr (0, .message [0, 0, 0, 1, 6, 0, 0, 0, 0]), .inr (1, .message [0, 0, 0, 2, 6, 0, 0, 0, 0]),
  .inr (1, .other .advance), .inr (1, .other .advance), .inr (1, .other (.write 0 ⟨6, []⟩)),
  .inr (1, .other (.task 0)), .inl (.mux (.onmessage 1 [0, 0, 0, 2, 6, 0, 0, 0, 0]))]

open Web.Connectrpc in
theorem browserGoCalls_joined :
    ∃ p, (star (browserClient false) goServer).run browserGoCalls = some p ∧
      Joined streamOf (p.hub.sessionsOn 1) (p.peer 1).sessions (p.up 1) (p.down 1)
        (p.hub.mux.messages 1) (p.peer 1).messages := by
  have hrun : (star (browserClient false) goServer).run browserGoCalls = some _ := rfl
  exact ⟨_, hrun, browser_goServer false browserGoCalls hrun (by decide) 1⟩

theorem browser_tsServer [ConnectPackage] (setup : MuxedSetup) (evs) {p}
    (hrun : (star (browserClient closeWhenIdle) (tsServer setup)).run evs = some p)
    (hlt : p.hub.mux.streams.length < 2 ^ 32) (k : Nat) :
    Joined streamOf (p.hub.sessionsOn k) ((p.peer k).1.sessions (p.peer k).2) (p.up k) (p.down k)
      (p.hub.mux.messages k) (p.peer k).1.sent := by
  have hinv := star_inv (Web.browserClient_upholds closeWhenIdle) (Core.tsServer_upholds setup)
    (fun _ _ _ ht hheard _ hm => ht.answerer.asks hheard hm) hrun
  exact joined (hinv.hub.caller hlt k) (hinv.peer k).answerer (hinv.up k) (hinv.down k)
    (hinv.hub.opensFirst k)

/-- A call that is given up while its response is under way. -/
def browserTsCall : List (Web.CallEvent ⊕ Nat × Core.MuxedEvent) := [
  .inl (.mux .openStream), .inl (.mux (.onopen 0)), .inl (.mux (.resume 0)), .inl (.headers 0 []),
  .inr (0, .receive [0, 0, 0, 1, 6, 0, 0, 0, 0]), .inr (0, .rpcWrite 0 [6, 0, 0, 0, 0]),
  .inr (0, .rpcWrite 0 [0, 0, 0, 0, 1, 9]), .inl (.mux (.onmessage 0 [0, 0, 0, 1, 6, 0, 0, 0, 0])),
  .inl (.fail 0), .inr (0, .receive [0, 0, 0, 1, 7, 0, 0, 0, 0])]

open Web.Connectrpc in
theorem browserTsCall_joined :
    ∃ p, (star (browserClient true) (tsServer {})).run browserTsCall = some p ∧
      Joined streamOf (p.hub.sessionsOn 0) ((p.peer 0).1.sessions (p.peer 0).2) (p.up 0) (p.down 0)
        (p.hub.mux.messages 0) (p.peer 0).1.sent := by
  have hrun : (star (browserClient true) (tsServer {})).run browserTsCall = some _ := rfl
  exact ⟨_, hrun, browser_tsServer true {} browserTsCall hrun (by decide) 0⟩

end

end Interop
end BidiWeb
