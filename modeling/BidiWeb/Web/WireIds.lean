/-
  BidiWeb.Web.WireIds

  Stream IDs of `WebSocketMux` on the wire.

  `entries` is keyed by the counter, a frame carries it modulo `2^32`.
-/

import BidiWeb.Lib.Uint8Array
import BidiWeb.Web.StreamFrames

namespace BidiWeb
namespace Web

open BidiWeb.Lib

/-- What a stream makes of a frame with this flag. -/
def Stream.receive (s : Stream) (k : Nat) (flag : UInt8) (rest : Bytes) : Stream :=
  if flag = flagEnvelopeReset then s.fail (.resetFrame k) serverResetError
  else s.route (flag :: rest) (flag = flagEnvelopeEndStream)

namespace WebSocketMux

variable {connect : ConnectPackage} {m m' : WebSocketMux}

/-- The wire form of the ID of stream `h` is good for it and for no other. -/
structure Routable (m : WebSocketMux) (h : Nat) (s : Stream) : Prop where
  nonzero : putUint32 (wireId h) ≠ [0, 0, 0, 0]
  distinct : ∀ (j : Nat) (s' : Stream), m.streams[j]? = some s' → s'.registered = true → j ≠ h →
    putUint32 (wireId j) ≠ putUint32 (wireId h)
  routed : ∀ (k : Nat) (flag : UInt8) (rest : Bytes),
    (m.route k (putUint32 (wireId h) ++ flag :: rest)).streams[h]? = some (s.receive k flag rest)
  others : ∀ (k : Nat) (flag : UInt8) (rest : Bytes) (j : Nat), j ≠ h →
    (m.route k (putUint32 (wireId h) ++ flag :: rest)).streams[j]? = m.streams[j]?

/-- Every live stream is routable. -/
def IdsRoutable (m : WebSocketMux) : Prop :=
  ∀ (h : Nat) (s : Stream), m.streams[h]? = some s → s.registered = true → m.Routable h s

/-- A stream that is opened is among the first `2^32 - 1`. -/
def IdsLeft (m : WebSocketMux) : MuxEvent → Prop
  | .resume i => i < m.ready.length → m.streams.length + 1 < 2 ^ 32
  | _ => True

theorem toNat_wireId (h : Nat) : (wireId h).toNat = (h + 1) % 4294967296 := UInt32.toNat_ofNat'

theorem route_wireId {h : Nat} (hentry : m.entry (wireId h) = some h) (k : Nat) (flag : UInt8)
    (rest : Bytes) :
    (m.route k (putUint32 (wireId h) ++ flag :: rest)).streams =
      m.streams.modify h (·.receive k flag rest) := by
  have hmessage : m.route k (putUint32 (wireId h) ++ flag :: rest) =
      if flag = flagEnvelopeReset then
        { m with streams := m.streams.modify h (·.fail (.resetFrame k) serverResetError) }
      else
        { m with
          streams := m.streams.modify h
            (·.route (flag :: rest) (flag = flagEnvelopeEndStream)) } := by
    have hid : getUint32 (wireId h >>> 24).toUInt8 (wireId h >>> 16).toUInt8
        (wireId h >>> 8).toUInt8 (wireId h).toUInt8 = wireId h := getUint32_of_put rfl
    simp only [putUint32, List.cons_append, List.nil_append, route, hid, hentry]
  rw [hmessage]
  unfold Stream.receive
  split <;> rfl

/-- Below `2^32` the counter and its wire form are one. -/
theorem routable_of_lt {h : Nat} {s : Stream} (hcount : m.streams.length < 2 ^ 32)
    (hs : m.streams[h]? = some s) (hreg : s.registered = true) : m.Routable h s := by
  have hlt : ∀ (j : Nat) (s' : Stream), m.streams[j]? = some s' → j + 1 < 2 ^ 32 := by
    intro j s' hs'
    have hj : j < m.streams.length := (List.getElem?_eq_some_iff.mp hs').1
    omega
  have hentry : m.entry (wireId h) = some h := entry_wireId (hlt h s hs) hs hreg
  refine ⟨?_, ?_, ?_, ?_⟩
  · intro hzero
    have hid : wireId h = 0 := putUint32_injective hzero
    have hnat : (wireId h).toNat = 0 := congrArg UInt32.toNat hid
    rw [toNat_wireId] at hnat
    have hh : h + 1 < 2 ^ 32 := hlt h s hs
    omega
  · rintro j s' hs' - hne heq
    exact hne (wireId_inj (hlt j s' hs') (hlt h s hs) (putUint32_injective heq))
  · intro k flag rest
    rw [route_wireId hentry, List.getElem?_modify_eq, hs]
    rfl
  · intro k flag rest j hne
    rw [route_wireId hentry]
    exact List.getElem?_modify_ne _ _ hne.symm

/-- What a step does to the number of streams. -/
theorem length_step {ev : MuxEvent} (hstep : m.step ev = some m') :
    m'.streams.length = m.streams.length ∨
      ∃ i k, ev = .resume i ∧ m.ready[i]? = some k ∧ m' = m.resume i k := by
  by_cases hev : ∃ i, ev = .resume i
  · obtain ⟨i, rfl⟩ := hev
    obtain ⟨k, hk, rfl⟩ := step_resume.mp hstep
    exact .inr ⟨i, k, rfl, hk, rfl⟩
  · exact .inl (kept_step hstep (not_exists.mp hev)).length

/-- The next stream gets the wire form of the counter. -/
theorem lt_of_idsRoutable_resume {i k : Nat} (hcount : m.streams.length < 2 ^ 32)
    (hids : (m.resume i k).IdsRoutable) : m.streams.length + 1 < 2 ^ 32 := by
  have hnew : (m.resume i k).streams[m.streams.length]? = some { socket := k } :=
    List.getElem?_concat_length
  have hzero := (hids _ _ hnew rfl).nonzero
  by_contra hlt
  have hlength : m.streams.length = 4294967295 := by omega
  rw [hlength] at hzero
  exact hzero (by decide)

end WebSocketMux

open WebSocketMux in
/-- In every run, the ID of every live stream is good on the wire, if and only
    if each stream opened is among the first `2^32 - 1` of the mux. -/
theorem stream_ids_routable_iff [ConnectPackage] (closeWhenIdle : Bool) (events : List MuxEvent) :
    (webSocketMux closeWhenIdle).Always IdsRoutable (webSocketMux closeWhenIdle).init events ↔
      (webSocketMux closeWhenIdle).Meets IdsLeft (webSocketMux closeWhenIdle).init events := by
  apply Machine.always_iff_meets (I := fun m => m.streams.length < 2 ^ 32)
  · intro m ev m' hcount hleft hstep
    rcases length_step hstep with hsame | ⟨i, k, rfl, hk, rfl⟩
    · exact hsame ▸ hcount
    · have hi : i < m.ready.length := (List.getElem?_eq_some_iff.mp hk).1
      have hlength : (m.resume i k).streams.length = m.streams.length + 1 := List.length_append
      rw [hlength]
      exact hleft hi
  · exact fun m hcount h s hs hreg => routable_of_lt hcount hs hreg
  · intro m ev hcount hnext
    cases ev with
    | resume i =>
        intro hi
        obtain ⟨k, hk⟩ : ∃ k, m.ready[i]? = some k := ⟨_, List.getElem?_eq_getElem hi⟩
        exact lt_of_idsRoutable_resume hcount (hnext _ (step_resume.mpr ⟨k, hk, rfl⟩))
    | _ => trivial
  · show 0 < 2 ^ 32
    decide

-- ============================================================================
-- A mux that opens one stream after the other
-- ============================================================================

/-- Dial, and open a first stream and `n` more. -/
def opens (n : Nat) : List MuxEvent :=
  [.openStream, .onopen 0, .resume 0] ++ (List.replicate n [.openStream, .resume 0]).flatten

/-- The mux after that: no stream has been closed. -/
def openedMux (n : Nat) : WebSocketMux where
  sockets := [{ readyState := .opened }]
  socket := some 0
  streams := List.replicate (n + 1) { socket := 0 }

theorem run_opens [ConnectPackage] (n : Nat) :
    (webSocketMux false).run (opens n) = some (openedMux n) := by
  have hmore : ∀ (n j : Nat), (webSocketMux false).exec (openedMux j)
      (List.replicate n [MuxEvent.openStream, .resume 0]).flatten = some (openedMux (j + n)) := by
    intro n
    induction n with
    | zero => exact fun _ => rfl
    | succ n ih =>
        intro j
        have hstreams : List.replicate (j + 1) ({ socket := 0 } : Stream) ++ [{ socket := 0 }] =
            List.replicate (j + 2) { socket := 0 } := List.replicate_succ'.symm
        have hopens : (webSocketMux false).exec (openedMux j) [.openStream, .resume 0] =
            some (openedMux (j + 1)) := by
          show some { openedMux j with
            streams :=
              List.replicate (j + 1) ({ socket := 0 } : Stream) ++
                [({ socket := 0 } : Stream)] } = _
          rw [hstreams]
          rfl
        rw [List.replicate_succ, List.flatten_cons, (webSocketMux false).exec_append]
        refine ⟨_, hopens, ?_⟩
        rw [ih, Nat.add_right_comm, Nat.add_assoc]
  apply (webSocketMux false).exec_append.mpr
  refine ⟨openedMux 0, rfl, ?_⟩
  rw [hmore, Nat.zero_add]

theorem getElem?_openedMux (n : Nat) : (openedMux n).streams[n]? = some { socket := 0 } :=
  List.getElem?_replicate_of_lt (Nat.lt_succ_self n)

open Connectrpc in
/-- The `2^32`-th stream is live, and the frames it sends carry the ID zero;
    what is sent back to that ID is dropped. -/
theorem zero_wire_id :
    (¬ ∀ (closeWhenIdle : Bool) (events : List MuxEvent), (webSocketMux closeWhenIdle).Always
        WebSocketMux.IdsRoutable (webSocketMux closeWhenIdle).init events) ∧
      ∃ m, (webSocketMux false).run (opens (2 ^ 32 - 1)) = some m ∧
        m.streams[2 ^ 32 - 1]? = some { socket := 0 } ∧
        (∀ envelope, prefixStreamId (2 ^ 32 - 1) envelope = 0 :: 0 :: 0 :: 0 :: envelope) ∧
        ∀ (k : Nat) (flag : UInt8) (rest : Bytes),
          m.route k (0 :: 0 :: 0 :: 0 :: flag :: rest) = m := by
  have hrun : (webSocketMux false).run (opens (2 ^ 32 - 1)) = some (openedMux (2 ^ 32 - 1)) :=
    run_opens _
  have hlast : (openedMux (2 ^ 32 - 1)).streams[2 ^ 32 - 1]? = some { socket := 0 } :=
    getElem?_openedMux _
  have hzero : putUint32 (wireId (2 ^ 32 - 1)) = [0, 0, 0, 0] := by decide
  refine ⟨fun hclaim => ?_, _, hrun, hlast, fun envelope => ?_, fun k flag rest => rfl⟩
  · have hids : (openedMux (2 ^ 32 - 1)).IdsRoutable :=
      (webSocketMux false).of_always (hclaim false (opens (2 ^ 32 - 1))) hrun
    exact (hids _ _ hlast rfl).nonzero hzero
  · rw [prefixStreamId, hzero]
    rfl

end Web
end BidiWeb
