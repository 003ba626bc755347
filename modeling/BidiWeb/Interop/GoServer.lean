/-
  BidiWeb.Interop.GoServer

  The Go server as the answerer of a connection, whatever the client is: its
  streams are given what the messages taken carry for them, for every stream
  ID that a single headers envelope opens.
-/

import BidiWeb.Interop.GoEnd
import BidiWeb.Lib.Star

namespace BidiWeb
namespace ConnectWebSocket

open BidiWeb.Lib
open BidiWeb.Interop

/-- `ServeHTTP` at the other end of a connection. -/
def goServer : Peer MuxConn WireEvent Bytes where
  init := { role := .server }
  step := MuxConn.wireStep
  takes := WireEvent.takes
  sent := MuxConn.messages

namespace MuxConn

variable {c c' : MuxConn} {heard : List Bytes}

/-- The frames seen open the stream `id` with their only headers envelope. -/
def OpenedOnce (c : MuxConn) (id : UInt32) : Prop := HeadersFirst (envelopesOf id c.seen)

structure Answers (c : MuxConn) (heard : List Bytes) : Prop where
  role : c.role = .server
  heard : c.Heard heard
  received : c.Received c.OpenedOnce
  sent : c.Sent
  /-- The streams are those that the frames the loop is done with opened. -/
  opened : ∀ fs, c.seen = fs ++ c.loop.frame.toList →
    c.ids.Sublist (openers streamOf opensStream (fs.map Frame.bytes))

theorem answers_init : Answers { role := .server } [] where
  role := rfl
  heard := heard_init _
  received := received_init _ _
  sent := sent_init _
  opened := fun _ _ => List.nil_sublist _

theorem openers_headers {f : Frame} (h : f.env.flag = flagEnvelopeHeaders) :
    openers streamOf opensStream [f.bytes] = [f.id] := by
  have hplain : f.env.isReset = false := by
    rw [Envelope.isReset, h]
    decide
  have hlabel := streamOf_bytes f
  rw [hplain] at hlabel
  have hopened : openedBy streamOf opensStream f.bytes = some f.id :=
    openedBy_eq_some.mpr ⟨_, hlabel, by rw [opensStream_envelopeBytes, h]; rfl⟩
  simp [openers, hopened]

/-- A server that opens a stream has a headers frame in its loop's hand. -/
theorem opens_server (hc : Answers c heard) {o : StreamObject} (hopens : Opens c c' o) :
    ∃ f fs, c.loop = .missing f ∧ c.seen = fs ++ [f] ∧ f.env.flag = flagEnvelopeHeaders ∧
      o.stream.id = f.id ∧ o.stream.inbox = [f.env] ∧ c'.loop.frame = none := by
  cases hopens with
  | client hclient _ =>
      rw [hc.role] at hclient
      cases hclient
  | server f _ hmissing hheaders hid hinbox hframe =>
      obtain ⟨fs, hseen⟩ := hc.received.hand f (by rw [hmissing]; rfl)
      exact ⟨f, fs, hmissing, hseen, hheaders, hid, hinbox, hframe⟩

/-- What it opens is fresh, for the IDs it serves after the step. -/
theorem Answers.createsFresh (hc : Answers c heard) {ev : ConnEvent}
    (hstep : c.step ev = some c') : CreatesFresh c'.OpenedOnce c c' := by
  intro o hobjs
  obtain ⟨f, fs, hmissing, hseen, hheaders, hid, hinbox, -⟩ :=
    opens_server hc ((wrote_step hstep).opens hobjs)
  have hplain : f.env.isReset = false := by
    rw [Envelope.isReset, hheaders]
    decide
  have hsame : c'.seen = c.seen := by
    cases (looped_step hstep).1 with
    | same hseen _ => exact hseen
    | done hseen _ => exact hseen
    | took _ _ _ hnone _ =>
        rw [hmissing] at hnone
        cases hnone
  refine ⟨fun h f' hfound => ?_, fun honce => ?_⟩
  · rw [hmissing] at hfound
    cases hfound
  · rw [OpenedOnce, hsame, hid, hseen, envelopesOf_append, envelopesOf_single hplain] at honce
    rw [hid, hseen, envelopesOf_append, honce.eq_nil hheaders, envelopesOf_single hplain, hinbox]
    rfl

theorem Answers.openedStep (hc : Answers c heard) {ev : ConnEvent} (hstep : c.step ev = some c')
    (fs : List Frame) (hseen' : c'.seen = fs ++ c'.loop.frame.toList) :
    c'.ids.Sublist (openers streamOf opensStream (fs.map Frame.bytes)) := by
  -- the frame in the loop's hand when a stream is opened is the last one seen
  have hnew : ∀ {o}, c'.objs = c.objs ++ [o] → c'.ids = c.ids ++ [o.stream.id] →
      c'.seen = c.seen →
        c'.ids.Sublist (openers streamOf opensStream (c.seen.map Frame.bytes)) := by
    intro o hobjs hids _
    obtain ⟨f, fs, hmissing, hseen, hheaders, hid, -, -⟩ :=
      opens_server hc ((wrote_step hstep).opens hobjs)
    rw [hids, hseen, List.map_append, openers_append, List.map_singleton, openers_headers hheaders,
      hid]
    exact (hc.opened fs (by rw [hseen, hmissing]; rfl)).append (List.Sublist.refl _)
  cases (looped_step hstep).1 with
  | same hseen hframe =>
      rw [hseen, hframe] at hseen'
      rcases (wrote_step hstep).ids_cases with hids | ⟨o, hobjs, hids⟩
      · rw [hids]
        exact hc.opened fs hseen'
      · obtain ⟨f, -, hmissing, -, -, -, -, hnone⟩ :=
          opens_server hc ((wrote_step hstep).opens hobjs)
        rw [hframe, hmissing] at hnone
        cases hnone
  | done hseen hframe =>
      rw [hframe, Option.toList_none, List.append_nil, hseen] at hseen'
      subst hseen'
      rcases (wrote_step hstep).ids_cases with hids | ⟨o, hobjs, hids⟩
      · rw [hids]
        cases hhand : c.loop.frame with
        | none => exact hc.opened c.seen (by simp [hhand])
        | some f =>
            obtain ⟨fs, hfs⟩ := hc.received.hand f hhand
            rw [hfs, List.map_append, openers_append]
            have hold := hc.opened fs (by rw [hhand]; exact hfs)
            exact hold.trans (List.sublist_append_left _ _)
      · exact hnew hobjs hids hseen
  | took f _ hseen hnone hframe =>
      rw [hframe, hseen] at hseen'
      have hfs : c.seen = fs := (List.append_inj' hseen' rfl).1
      subst hfs
      rcases (wrote_step hstep).ids_cases with hids | ⟨o, hobjs, hids⟩
      · rw [hids]
        exact hc.opened c.seen (by simp [hnone])
      · obtain ⟨f, -, hmissing, -, -, -, -, -⟩ :=
          opens_server hc ((wrote_step hstep).opens hobjs)
        rw [hmissing] at hnone
        cases hnone

theorem Answers.step (hc : Answers c heard) {ev : WireEvent} (hstep : WireStepped c ev c') :
    Answers c' (heard ++ ev.takes.toList) := by
  obtain ⟨ev', hev⟩ := hstep.step
  have hseen : c.seen <+: c'.seen := by
    cases (looped_step hev).1 with
    | same hseen _ => exact hseen ▸ List.prefix_rfl
    | done hseen _ => exact hseen ▸ List.prefix_rfl
    | took f _ hseen _ _ => exact hseen ▸ List.prefix_append ..
  exact
    { role := (looped_step hev).2.trans hc.role
      heard := hc.heard.step hstep
      received := (hc.received.mono fun _ honce =>
        honce.mono (envelopesOf_mono hseen)).step hev (hc.createsFresh hev)
      sent := hc.sent.step (wrote_step hev)
      opened := hc.openedStep hev }

-- ============================================================================
-- The sessions of a server
-- ============================================================================

theorem Answers.ids_sublist (hc : Answers c heard) :
    c.ids.Sublist (openers streamOf opensStream heard) := by
  obtain ⟨more, hmore⟩ := hc.heard.seen
  rw [← hmore, openers_append]
  have hseen : c.ids.Sublist (openers streamOf opensStream (c.seen.map Frame.bytes)) := by
    cases hhand : c.loop.frame with
    | none => exact hc.opened c.seen (by simp [hhand])
    | some f =>
        obtain ⟨fs, hfs⟩ := hc.received.hand f hhand
        rw [hfs, List.map_append, openers_append]
        exact (hc.opened fs (by rw [hhand]; exact hfs)).trans (List.sublist_append_left _ _)
  exact hseen.trans (List.sublist_append_left _ _)

theorem Answers.served (hc : Answers c heard)
    (honce : ∀ i, OpensFirst opensStream (carried streamOf i heard)) {s : Session UInt32 Bytes}
    (hs : s ∈ c.sessions) : s.Served streamOf c.messages heard := by
  obtain ⟨h, o, ho, rfl⟩ := mem_sessions.mp hs
  have hnodup : c.ids.Nodup := (nodup_openers honce).sublist hc.ids_sublist
  have hpre : carried streamOf o.stream.id (c.seen.map Frame.bytes) <+:
      carried streamOf o.stream.id heard := carried_mono hc.heard.seen
  have hgood : c.OpenedOnce o.stream.id := by
    rw [carried_bytes] at hpre
    exact opensFirst_iff.mp ((honce o.stream.id).mono hpre)
  exact session_served hc.sent hc.heard hc.received ho hgood
    (List.nodup_iff_count.mp hnodup o.stream.id)

theorem Answers.answerer (hc : Answers c heard) :
    Answerer streamOf opensStream c.sessions c.messages heard where
  asked := fun _ hname => names_of_mem_openers (hc.ids_sublist.subset (sent_named hc.sent hname))
  opened := fun s hs => by
    refine names_of_mem_openers (hc.ids_sublist.subset ?_)
    rw [← ids_sessions]
    exact List.mem_map_of_mem hs
  owner := fun i hname => by
    have hid := sent_named hc.sent hname
    rw [← ids_sessions] at hid
    exact List.mem_map.mp hid
  nodup := fun honce => by
    rw [ids_sessions]
    exact (nodup_openers honce).sublist hc.ids_sublist
  served := fun honce _ hs => hc.served honce hs

end MuxConn

theorem goServer_upholds : goServer.Upholds MuxConn.Answers where
  init := MuxConn.answers_init
  quiet := fun t heard ev t' ht htakes hstep => by
    have hnext := ht.step (MuxConn.wireStepped hstep)
    rwa [show ev.takes = none from htakes, Option.toList_none, List.append_nil] at hnext
  hears := fun t heard ev t' m ht htakes hstep => by
    have hnext := ht.step (MuxConn.wireStepped hstep)
    rwa [show ev.takes = some m from htakes] at hnext
  grows := fun t ev t' hstep => MuxConn.messages_grow (MuxConn.wireStepped hstep)

end ConnectWebSocket
end BidiWeb
