/-
  BidiWeb.Interop.GoEnd

  The Go end of a connection, of either role: what its streams are given and
  have put, against the messages it has taken and written.

  A message that is no frame ends the read loop, so what is seen is a
  beginning of what is taken.
-/

import BidiWeb.ConnectWebSocket.Abandoned
import BidiWeb.ConnectWebSocket.WireSteps
import BidiWeb.Interop.Messages

namespace BidiWeb
namespace ConnectWebSocket

open BidiWeb.Lib
open BidiWeb.Interop

-- ============================================================================
-- Sessions
-- ============================================================================

namespace MuxConn

variable (c : MuxConn)

/-- Stream `h` as its user and the connection see it. -/
def session (h : Nat) (o : StreamObject) : Session UInt32 Bytes where
  id := o.stream.id
  put := o.wrote.map envelopeBytes
  got := o.returned.map envelopeBytes
  buffered := (o.stream.inbox ++ c.loop.hand o.stream.id).map envelopeBytes
  live := o.handlerDone = false ∧ c.streams o.stream.id = some h ∧ c.loop ≠ .stopped

def sessions : List (Session UInt32 Bytes) := c.objs.mapIdx c.session

variable {c} {c' : MuxConn} {heard : List Bytes}

theorem mem_sessions {s : Session UInt32 Bytes} :
    s ∈ c.sessions ↔ ∃ (h : Nat) (o : StreamObject), c.objs[h]? = some o ∧ s = c.session h o := by
  rw [sessions, List.mem_iff_getElem?]
  constructor
  · rintro ⟨h, hs⟩
    rw [List.getElem?_mapIdx] at hs
    obtain ⟨o, ho, rfl⟩ := Option.map_eq_some_iff.mp hs
    exact ⟨h, o, ho, rfl⟩
  · rintro ⟨h, o, ho, rfl⟩
    exact ⟨h, by rw [List.getElem?_mapIdx, ho]; rfl⟩

theorem ids_sessions : c.sessions.map (·.id) = c.ids := by
  refine List.ext_getElem? fun h => ?_
  rw [sessions, ids, List.getElem?_map, List.getElem?_mapIdx, List.getElem?_map]
  cases c.objs[h]? <;> rfl

-- ============================================================================
-- What is seen of the messages
-- ============================================================================

/-- What an end has seen of the messages it has taken. -/
structure Heard (c : MuxConn) (heard : List Bytes) : Prop where
  seen : c.seen.map Frame.bytes <+: heard
  /-- Only a message that ends the loop is not seen. -/
  reading : c.loop ≠ .stopped → c.seen.map Frame.bytes = heard

theorem heard_init (role : Role) : Heard { role } [] where
  seen := List.prefix_rfl
  reading := fun _ => rfl

theorem Heard.step (hc : c.Heard heard) {ev : WireEvent} (hstep : WireStepped c ev c') :
    c'.Heard (heard ++ ev.takes.toList) := by
  cases hstep with
  | frame f _ hstep =>
      cases stepped hstep with
      | recv _ hloop =>
          have hsame : (c.seen ++ [f]).map Frame.bytes = heard ++ [f.bytes] := by
            rw [List.map_append, hc.reading (by simp [hloop])]
            rfl
          exact ⟨by rw [hsame]; exact List.prefix_rfl, fun _ => hsame⟩
  | refused data err _ hstep =>
      cases stepped hstep with
      | recvFails _ hloop =>
          exact ⟨hc.seen.trans (List.prefix_append ..), fun hne => absurd rfl hne⟩
  | other ev _ hev hstep =>
      have hseen : c'.seen = c.seen := by
        cases (looped_step hstep).1 with
        | same hseen _ => exact hseen
        | done hseen _ => exact hseen
        | took f htook =>
            rw [htook] at hev
            cases hev
      rw [show heard ++ (WireEvent.other ev).takes.toList = heard from List.append_nil heard]
      refine ⟨by rw [hseen]; exact hc.seen, fun hne => ?_⟩
      rw [hseen]
      refine hc.reading fun hstopped => hne ?_
      exact stopped_step (stepped hstep) hstopped

end MuxConn

-- ============================================================================
-- Frames and what they carry
-- ============================================================================

theorem streamOf_bytes (f : Frame) :
    streamOf f.bytes = if f.env.isReset then none else some (f.id, envelopeBytes f.env) := by
  have hlabel := streamOf_encodeStreamFrame f.id (envelopeBytes f.env)
  rw [isEnvelope_envelopeBytes] at hlabel
  rw [Frame.bytes, frameBytes_eq]
  refine hlabel.trans ?_
  cases f.env.isReset <;> rfl

theorem carried_bytes (id : UInt32) (fs : List Frame) :
    carried streamOf id (fs.map Frame.bytes) = (envelopesOf id fs).map envelopeBytes := by
  induction fs with
  | nil => rfl
  | cons f fs ih =>
      have hcons : carried streamOf id ([f.bytes] ++ fs.map Frame.bytes) =
          carried streamOf id [f.bytes] ++ carried streamOf id (fs.map Frame.bytes) :=
        carried_append
      have hsplit : envelopesOf id (f :: fs) = envelopesOf id [f] ++ envelopesOf id fs :=
        envelopesOf_append id [f] fs
      rw [hsplit, List.map_append, ← ih, List.map_cons, ← List.singleton_append, hcons,
        carried_singleton]
      refine congrArg (· ++ _) ?_
      have hlabel := streamOf_bytes f
      cases hreset : f.env.isReset with
      | true =>
          rw [hreset] at hlabel
          rw [carries_of_none hlabel, envelopesOf_single_reset hreset]
          rfl
      | false =>
          rw [hreset] at hlabel
          by_cases hid : f.id = id
          · subst hid
            rw [carries_of_label hlabel, envelopesOf_single hreset]
            rfl
          · rw [carries_of_ne hlabel hid, envelopesOf_single_of_ne hid]
            rfl

theorem names_bytes {id : UInt32} {fs : List Frame} (h : names streamOf id (fs.map Frame.bytes)) :
    ∃ f ∈ fs, f.id = id ∧ f.env.isReset = false := by
  obtain ⟨m, hm, e, hlabel⟩ := h
  obtain ⟨f, hf, rfl⟩ := List.mem_map.mp hm
  rw [streamOf_bytes] at hlabel
  cases hreset : f.env.isReset with
  | true => simp [hreset] at hlabel
  | false =>
      rw [hreset] at hlabel
      exact ⟨f, hf, (Prod.mk.inj (Option.some.inj hlabel)).1, hreset⟩

/-- A stream opens with its only headers envelope, seen on either side. -/
theorem opensFirst_iff {es : List Envelope} :
    OpensFirst opensStream (es.map envelopeBytes) ↔ HeadersFirst es := by
  match es with
  | [] => exact Iff.rfl
  | env :: rest =>
      show opensStream (envelopeBytes env) = true ∧
        (∀ x ∈ rest.map envelopeBytes, opensStream x = false) ↔ _
      simp only [opensStream_envelopeBytes, decide_eq_true_eq, HeadersFirst]
      refine and_congr_right fun _ => ⟨fun h env' henv' => ?_, fun h x hx => ?_⟩
      · have hflag := h _ (List.mem_map_of_mem henv')
        rw [opensStream_envelopeBytes] at hflag
        exact of_decide_eq_false hflag
      · obtain ⟨env', henv', rfl⟩ := List.mem_map.mp hx
        rw [opensStream_envelopeBytes]
        exact decide_eq_false (h env' henv')

-- ============================================================================
-- What the messages carry for a stream
-- ============================================================================

namespace MuxConn

variable {c : MuxConn} {heard : List Bytes}

theorem sent_named (hc : c.Sent) {id : UInt32} (h : names streamOf id c.messages) : id ∈ c.ids := by
  obtain ⟨f, hf, rfl, -⟩ := names_bytes h
  exact hc.owner f hf

/-- A stream that has its ID to itself, of those the invariant is about. -/
theorem session_served {G : UInt32 → Prop} (hsent : c.Sent) (hheard : c.Heard heard)
    (hrecv : c.Received G) {h : Nat} {o : StreamObject} (ho : c.objs[h]? = some o)
    (hG : G o.stream.id) (hcount : c.ids.count o.stream.id ≤ 1) :
    (c.session h o).Served streamOf c.messages heard := by
  have hpre : carried streamOf o.stream.id (c.seen.map Frame.bytes) <+:
      carried streamOf o.stream.id heard := carried_mono hheard.seen
  refine ⟨?_, ?_, fun hlive => ?_⟩
  · show carried streamOf o.stream.id (c.sent.map Frame.bytes) = _
    rw [carried_bytes, hsent.wrote o (List.mem_of_getElem? ho) hcount]
    rfl
  · refine List.IsPrefix.trans ?_ hpre
    rw [carried_bytes]
    exact (hrecv.returned h o ho hG).map _
  · obtain ⟨halive, hreg, hrunning⟩ := hlive
    have hall := (hrecv.registered h o ho hG halive hreg).2
    show o.returned.map envelopeBytes ++
      (o.stream.inbox ++ c.loop.hand o.stream.id).map envelopeBytes = _
    rw [← hheard.reading hrunning, ← List.map_append, ← List.append_assoc]
    exact (congrArg _ hall).trans (carried_bytes _ _).symm

end MuxConn

end ConnectWebSocket
end BidiWeb
