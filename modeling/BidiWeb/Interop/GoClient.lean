/-
  BidiWeb.Interop.GoClient

  The client transport as the caller on every connection it dials.
-/

import BidiWeb.ConnectWebSocket.ClientConn
import BidiWeb.ConnectWebSocket.Transport
import BidiWeb.Interop.GoEnd
import BidiWeb.Lib.Star

namespace BidiWeb
namespace ConnectWebSocket

open BidiWeb.Lib
open BidiWeb.Interop

namespace MuxConn

variable {c c' : MuxConn} {heard : List Bytes}

-- ============================================================================
-- One connection
-- ============================================================================

/-- A client's end of a connection, as long as it hears only IDs it has used. -/
structure Asks (c : MuxConn) (heard : List Bytes) : Prop where
  role : c.role = .client
  taken : c.Heard heard
  sent : c.Sent
  mapped : c.Mapped
  asked : ∀ i, names streamOf i heard → i ∈ c.ids
  /-- While the IDs last. -/
  numbered : c.objs.length < 2 ^ 32 → c.Numbered
  received : c.objs.length < 2 ^ 32 → c.Received fun _ => True

theorem asks_init : Asks { role := .client } [] where
  role := rfl
  taken := heard_init _
  sent := sent_init _
  mapped := nofun
  asked := fun _ h => by
    obtain ⟨m, hm, -⟩ := h
    cases hm
  numbered := fun _ => ⟨fun _ => rfl, fun _ _ h => by cases h⟩
  received := fun _ => received_init _ _

/-- Nothing was seen for a stream that is opened. -/
theorem Asks.createsFresh (hc : c.Asks heard) (hrecv : c.Received fun _ => True) {ev : ConnEvent}
    (hstep : c.step ev = some c') (hids : c'.ids.Nodup) :
    CreatesFresh (fun _ => True) c c' := by
  intro o hobjs
  have hnew : o.stream.id ∉ c.ids := by
    intro hmem
    rw [ids, hobjs, List.map_append, List.nodup_append] at hids
    exact hids.2.2 _ hmem _ (List.mem_singleton_self _) rfl
  have hinbox : o.stream.inbox = [] := by
    cases (wrote_step hstep).opens hobjs with
    | client _ hinbox => exact hinbox
    | server _ hserver _ _ _ _ _ =>
        rw [hc.role] at hserver
        cases hserver
  refine ⟨fun h f hfound heq => ?_, fun _ => ?_⟩
  · obtain ⟨o', ho', hid, -⟩ := hrecv.found h f hfound
    refine hnew (mem_ids.mpr ⟨o', List.mem_of_getElem? ho', ?_⟩)
    rw [hid, heq]
  · rw [hinbox]
    have hnone : carried streamOf o.stream.id (c.seen.map Frame.bytes) = [] := by
      refine carried_eq_nil.mpr fun hname => hnew ?_
      obtain ⟨m, hm, e, hlabel⟩ := hname
      exact hc.asked _ ⟨m, hc.taken.seen.subset hm, e, hlabel⟩
    rw [carried_bytes, List.map_eq_nil_iff] at hnone
    exact hnone

theorem Asks.step (hc : c.Asks heard) {ev : WireEvent} (hstep : WireStepped c ev c')
    (hasked : ∀ m ∈ ev.takes.toList, Asked streamOf c.messages m) :
    c'.Asks (heard ++ ev.takes.toList) := by
  obtain ⟨ev', hev⟩ := hstep.step
  have hgrow := (wrote_step hev).ids_grow
  have hbefore : c'.objs.length < 2 ^ 32 → c.objs.length < 2 ^ 32 := fun hlt => by
    have hle := hgrow.length_le
    rw [length_ids, length_ids] at hle
    omega
  have hnumbered : c'.objs.length < 2 ^ 32 → c'.Numbered := fun hlt =>
    (hc.numbered (hbefore hlt)).step hc.role hc.mapped hev hlt
  refine
    { role := (looped_step hev).2.trans hc.role
      taken := hc.taken.step hstep
      sent := hc.sent.step (wrote_step hev)
      mapped := hc.mapped.step (stepped hev) hc.role
      asked := fun i hname => ?_
      numbered := hnumbered
      received := fun hlt => ?_ }
  · obtain ⟨m, hm, e, hlabel⟩ := hname
    rcases List.mem_append.mp hm with hold | hnew
    · exact hgrow.subset (hc.asked i ⟨m, hold, e, hlabel⟩)
    · exact hgrow.subset (sent_named hc.sent (hasked m hnew i e hlabel))
  · have hrecv := hc.received (hbefore hlt)
    exact hrecv.step hev (hc.createsFresh hrecv hev (hnumbered hlt).nodup)

/-- The user of each stream sends its headers first. -/
theorem opensFirst_sessions (hopens : ∀ o ∈ c.objs, HeadersFirst o.wrote) :
    ∀ s ∈ c.sessions, OpensFirst opensStream s.put := by
  intro s hs
  obtain ⟨h, o, ho, rfl⟩ := mem_sessions.mp hs
  exact opensFirst_iff.mpr (hopens o (List.mem_of_getElem? ho))

theorem Asks.caller (hc : c.Asks heard) (hlt : c.objs.length < 2 ^ 32) :
    Caller streamOf c.sessions c.messages heard where
  served := fun s hs => by
    obtain ⟨h, o, ho, rfl⟩ := mem_sessions.mp hs
    have hcount := List.nodup_iff_count.mp (hc.numbered hlt).nodup o.stream.id
    exact session_served hc.sent hc.taken (hc.received hlt) ho trivial hcount
  owner := fun i hname => by
    have hid := sent_named hc.sent hname
    rw [← ids_sessions] at hid
    exact List.mem_map.mp hid

end MuxConn

-- ============================================================================
-- The transport
-- ============================================================================

namespace Transport

variable {t t' : Transport}

/-- The messages written to connection `k`. -/
def messages (t : Transport) (k : Nat) : List Bytes :=
  match t.conns[k]? with
  | some d => d.mc.messages
  | none => []

theorem messages_of_get {k : Nat} {d : Dialed} (hd : t.conns[k]? = some d) :
    t.messages k = d.mc.messages := by
  simp [messages, hd]

end Transport

def TransportEvent.takes : TransportEvent → Option (Nat × Bytes)
  | .conn k (.message data) => some (k, data)
  | _ => none

/-- The client at its end of every connection it dials. -/
def goClient (url : String) (connectionPerStream : Bool) :
    Hub Transport TransportEvent Nat Bytes where
  toMachine := transport url connectionPerStream
  takes := TransportEvent.takes
  sent := Transport.messages

namespace Transport

variable {t t' : Transport} {heard heard' : Nat → List Bytes}

/-- Every connection asks, and nothing is heard on one that is not dialled. -/
structure Asks (t : Transport) (heard : Nat → List Bytes) : Prop where
  conns : ∀ (k : Nat) (d : Dialed), t.conns[k]? = some d → d.mc.Asks (heard k)
  silent : ∀ k, t.conns.length ≤ k → heard k = []

theorem Asks.clients (ht : t.Asks heard) : t.Clients := by
  intro d hd
  obtain ⟨k, hk⟩ := List.getElem?_of_mem hd
  exact (ht.conns k d hk).role

theorem Asks.step (ht : t.Asks heard) {ev : TransportEvent} (hstep : Stepped t ev t')
    (hheard : ∀ k, heard' k = heard k ++ heardOn k ev)
    (hasked : ∀ k, ∀ m ∈ heardOn k ev, Asked streamOf (t.messages k) m) : t'.Asks heard' where
  conns := fun k d' hd' => by
    rw [hheard]
    cases connStepped ht.clients hstep hd' with
    | new hk hmc hquiet =>
        rw [hmc, hquiet, List.append_nil, ht.silent k (Nat.le_of_eq hk.symm)]
        exact MuxConn.asks_init
    | same hd hquiet =>
        rw [hquiet, List.append_nil]
        exact ht.conns k d' hd
    | moved d own hd _ hmoved htakes =>
        rw [← htakes]
        refine (ht.conns k d hd).step hmoved fun m hm => ?_
        rw [← messages_of_get hd]
        exact hasked k m (htakes ▸ hm)
  silent := fun k hk => by
    have hk := Nat.le_trans (length_conns hstep) hk
    rw [hheard, ht.silent k hk, heardOn_of_length_le hstep hk]
    rfl

theorem asks_init (url : String) (connectionPerStream : Bool) :
    (transport url connectionPerStream).init.Asks fun _ => [] where
  conns := fun _ _ h => by cases h
  silent := fun _ _ => rfl

theorem messages_step (ht : t.Clients) {ev : TransportEvent} (hstep : Stepped t ev t') (k : Nat) :
    t.messages k <+: t'.messages k := by
  unfold messages
  cases hd : t.conns[k]? with
  | none => exact List.nil_prefix
  | some d =>
      have hlt := Nat.lt_of_lt_of_le (List.getElem?_eq_some_iff.mp hd).1 (length_conns hstep)
      rw [List.getElem?_eq_getElem hlt]
      cases connStepped ht hstep (List.getElem?_eq_getElem hlt) with
      | new hk _ _ =>
          have := (List.getElem?_eq_some_iff.mp hd).1
          omega
      | same hsame _ =>
          rw [Option.some.inj (hd.symm.trans hsame)]
      | moved d₀ own hd₀ _ hmoved _ =>
          obtain rfl : d = d₀ := Option.some.inj (hd.symm.trans hd₀)
          exact MuxConn.messages_grow hmoved

end Transport

theorem takes_eq_some {ev : TransportEvent} {k : Nat} {m : Bytes} :
    ev.takes = some (k, m) ↔ ev = .conn k (.message m) := by
  cases ev with
  | conn j own => cases own <;> simp [TransportEvent.takes]
  | _ => simp [TransportEvent.takes]

theorem goClient_upholds (url : String) (connectionPerStream : Bool) :
    (goClient url connectionPerStream).Upholds (Asked streamOf) Transport.Asks where
  init := Transport.asks_init url connectionPerStream
  quiet := fun t heard ev t' ht htakes hstep => by
    have hquiet : ∀ k, Transport.heardOn k ev = [] := fun k => by
      cases ev with
      | conn j own =>
          cases own with
          | message data => cases htakes
          | other ev => rfl
      | _ => rfl
    refine ht.step (Transport.stepped hstep) (fun k => ?_) fun k m hm => ?_
    · rw [hquiet, List.append_nil]
    · rw [hquiet] at hm
      cases hm
  hears := fun t heard ev t' k m ht htakes hasked hstep => by
    obtain rfl := takes_eq_some.mp htakes
    have hstep : t.step (.conn k (.message m)) = some t' := hstep
    refine ht.step (Transport.stepped hstep) (fun j => ?_) fun j m' hm' => ?_
    · by_cases hj : j = k
      · subst hj
        simp [Transport.heardOn]
      · rw [Function.update_of_ne hj, Transport.heardOn, if_neg (Ne.symm hj), List.append_nil]
    · by_cases hj : k = j
      · subst hj
        obtain rfl : m' = m := by simpa [Transport.heardOn] using hm'
        exact hasked
      · rw [Transport.heardOn, if_neg hj] at hm'
        cases hm'
  grows := fun t heard ev t' ht hstep k =>
    Transport.messages_step ht.clients (Transport.stepped hstep) k

end ConnectWebSocket
end BidiWeb
