/-
  BidiWeb.ConnectWebSocket.StreamOrder

  Both ends of a connection that delivers frames unchanged and in order: what
  the streams of one end receive is a prefix of what the other end wrote on
  the stream of the same ID.

  The argument composes the two invariants of one end.  `Received` compares a
  stream with the frames its read loop has seen, `Sent` compares the frames
  an end has written with its streams, and the connection makes the former
  frames a prefix of the latter.
-/

import BidiWeb.ConnectWebSocket.Written

namespace BidiWeb
namespace ConnectWebSocket

open BidiWeb.Lib

-- ============================================================================
-- The two ends
-- ============================================================================

def Role.peer : Role → Role
  | .client => .server
  | .server => .client

/-- The two ends of one connection. -/
abbrev Net := Role → MuxConn

/-- The frame an event takes from the connection. -/
def ConnEvent.takes : ConnEvent → Option Frame
  | .recv f => some f
  | .recvFails _ | .advance | .drop | .newStream _ | .write .. | .read _ | .cancel .. | .close _
  | .shutdown | .handlerReturn _ | .task _ | .writeFails _ => none

/-- What an end reads is the next frame the other one has written. -/
def Net.carries (n : Net) (r : Role) (ev : ConnEvent) : Bool :=
  ev.takes.all fun f => (n r.peer).sent[(n r).seen.length]? = some f

/-- Either end takes a step. -/
def Net.step (n : Net) (ev : Role × ConnEvent) : Option Net :=
  if n.carries ev.1 ev.2 then
    ((n ev.1).step ev.2).map fun c => Function.update n ev.1 c
  else none

def net : Machine Net (Role × ConnEvent) where
  init := fun role => { role }
  step := Net.step

/-- A stream opens with its headers envelope and has no other. -/
def HeadersFirst : List Envelope → Prop
  | [] => True
  | env :: rest =>
      env.flag = flagEnvelopeHeaders ∧ ∀ env' ∈ rest, env'.flag ≠ flagEnvelopeHeaders

instance : DecidablePred HeadersFirst
  | [] => isTrue trivial
  | env :: rest =>
      inferInstanceAs (Decidable (env.flag = flagEnvelopeHeaders ∧
        ∀ env' ∈ rest, env'.flag ≠ flagEnvelopeHeaders))

theorem HeadersFirst.mono {xs ys : List Envelope} (h : HeadersFirst ys) (hpre : xs <+: ys) :
    HeadersFirst xs := by
  obtain ⟨more, rfl⟩ := hpre
  match xs with
  | [] => trivial
  | env :: rest => exact ⟨h.1, fun env' hmem => h.2 env' (List.mem_append_left _ hmem)⟩

/-- The only place for a headers envelope is the first. -/
theorem HeadersFirst.eq_nil {xs : List Envelope} {env : Envelope} (h : HeadersFirst (xs ++ [env]))
    (henv : env.flag = flagEnvelopeHeaders) : xs = [] := by
  match xs with
  | [] => rfl
  | x :: rest =>
      exact absurd henv (h.2 env (List.mem_append_right _ (List.mem_singleton_self env)))

/-- The client opens the stream with the ID `id` as `HeadersFirst` says. -/
def Good (n : Net) (id : UInt32) : Prop :=
  ∀ o ∈ (n .client).objs, o.stream.id = id → HeadersFirst o.wrote

-- ============================================================================
-- One end
-- ============================================================================

namespace MuxConn

variable {c c' : MuxConn}

/-- Every stream was opened by a headers envelope the loop is done with. -/
def Opened (c : MuxConn) : Prop :=
  ∀ o ∈ c.objs, ∀ fs, c.seen = fs ++ c.loop.frame.toList →
    ∃ f ∈ fs, f.id = o.stream.id ∧ f.env.flag = flagEnvelopeHeaders

theorem Opened.step (hc : c.Opened) {ev : ConnEvent} (hloop : Looped ev c c') (hw : Wrote c c')
    (hrole : c.role = .server) {G : UInt32 → Prop} (hrecv : Received G c) : c'.Opened := by
  intro o' ho' fs' hseen'
  rcases hw.back ho' with ⟨o, ho, hid, -⟩ | ⟨-, hopens⟩
  · rw [← hid]
    cases hloop with
    | same hseen hframe =>
        rw [hframe, hseen] at hseen'
        exact hc o ho fs' hseen'
    | done hseen hframe =>
        rw [hframe, hseen, Option.toList_none, List.append_nil] at hseen'
        cases hold : c.loop.frame with
        | none =>
            refine hc o ho fs' ?_
            rw [hold, Option.toList_none, List.append_nil]
            exact hseen'
        | some f =>
            obtain ⟨fs, hfs⟩ := hrecv.hand f hold
            obtain ⟨f', hf', hfound⟩ := hc o ho fs (by rw [hold]; exact hfs)
            refine ⟨f', ?_, hfound⟩
            rw [← hseen', hfs]
            exact List.mem_append_left _ hf'
    | took f _ hseen hnone hframe =>
        rw [hframe, hseen] at hseen'
        have hfs : c.seen = fs' := (List.append_inj' hseen' rfl).1
        refine hc o ho fs' ?_
        rw [hnone, Option.toList_none, List.append_nil]
        exact hfs
  · cases hopens with
    | client hclient _ =>
        rw [hclient] at hrole
        cases hrole
    | server f _ hmissing hheaders hid _ hframe =>
        obtain ⟨fs, hfs⟩ := hrecv.hand f (by rw [hmissing]; rfl)
        have hseen : c'.seen = c.seen := by
          cases hloop with
          | same hseen _ => exact hseen
          | done hseen _ => exact hseen
          | took _ _ _ hnone _ =>
              rw [hmissing] at hnone
              cases hnone
        rw [hframe, Option.toList_none, List.append_nil, hseen, hfs] at hseen'
        refine ⟨f, ?_, hid.symm, hheaders⟩
        rw [← hseen']
        exact List.mem_append_right _ (List.mem_singleton_self f)

end MuxConn

-- ============================================================================
-- The invariant
-- ============================================================================

/-- The invariant of a connection, as long as the client has used no stream
    ID twice. -/
structure NetInv (n : Net) : Prop where
  role : ∀ r, (n r).role = r
  received : ∀ r, (n r).Received (Good n)
  sent : ∀ r, (n r).Sent
  /-- The connection delivers in order. -/
  seen : ∀ r, (n r).seen <+: (n r.peer).sent
  opened : (n .server).Opened
  ids : ∀ id ∈ (n .server).ids, id ∈ (n .client).ids
  unique : ∀ id, Good n id → (n .server).ids.count id ≤ 1

variable {n n' : Net}

theorem net_init_inv : NetInv net.init where
  role := fun _ => rfl
  received := fun _ => MuxConn.received_init _ _
  sent := fun _ => MuxConn.sent_init _
  seen := fun _ => List.prefix_rfl
  opened := fun _ h => by cases h
  ids := fun _ h => by cases h
  unique := fun _ _ => Nat.zero_le _

/-- What a stream of the server has been sent with a good ID opens with its
    headers. -/
theorem NetInv.headersFirst (hn : NetInv n) (hids : (n .client).ids.Nodup) {id : UInt32}
    (hgood : Good n id) : HeadersFirst (envelopesOf id (n .server).seen) := by
  have hpre : envelopesOf id (n .server).seen <+: envelopesOf id (n .client).sent :=
    envelopesOf_mono (hn.seen .server)
  refine HeadersFirst.mono ?_ hpre
  by_cases hmem : id ∈ (n .client).ids
  · obtain ⟨o, ho, rfl⟩ := MuxConn.mem_ids.mp hmem
    rw [(hn.sent .client).wrote o ho (List.nodup_iff_count.mp hids _)]
    exact hgood o ho rfl
  · rw [(hn.sent .client).envelopesOf_eq_nil hmem]
    trivial

/-- The headers envelope that opens a stream is the first one of its ID. -/
theorem NetInv.headers_alone (hn : NetInv n) (hids : (n .client).ids.Nodup) {f : Frame}
    {fs : List Frame} (hseen : (n .server).seen = fs ++ [f])
    (hheaders : f.env.flag = flagEnvelopeHeaders) (hgood : Good n f.id) :
    envelopesOf f.id fs = [] := by
  have hfirst := hn.headersFirst hids hgood
  have hreset : f.env.isReset = false := by
    rw [Envelope.isReset, hheaders]
    decide
  rw [hseen, envelopesOf_append, envelopesOf_single hreset] at hfirst
  exact hfirst.eq_nil hheaders

theorem Good.of_wrote {id : UInt32} (hw : Wrote (n .client) (n' .client)) (hg : Good n' id) :
    Good n id := by
  intro o ho hid
  obtain ⟨o', ho', hid', hpre⟩ := hw.forth ho
  exact (hg o' ho' (hid'.trans hid)).mono hpre

/-- What a server opens is fresh. -/
theorem NetInv.server_fresh (hn : NetInv n) (hids : (n .client).ids.Nodup) {c : MuxConn}
    {o : StreamObject} (hopens : Opens (n .server) c o) :
    MuxConn.Fresh (Good n) (n .server) o ∧ o.stream.id ∈ (n .client).ids ∧
      (Good n o.stream.id → (n .server).ids.count o.stream.id = 0) := by
  cases hopens with
  | client hclient _ =>
      rw [hn.role .server] at hclient
      cases hclient
  | server f _ hmissing hheaders hid hinbox _ =>
      have hframe : (n .server).loop.frame = some f := by
        rw [hmissing]
        rfl
      obtain ⟨fs, hseen⟩ := (hn.received .server).hand f hframe
      have hreset : f.env.isReset = false := by
        rw [Envelope.isReset, hheaders]
        decide
      refine ⟨⟨fun h f' hfound => ?_, fun hg => ?_⟩, ?_, fun hg => ?_⟩
      · rw [hmissing] at hfound
        cases hfound
      · rw [hid] at hg ⊢
        rw [hseen, envelopesOf_append, hn.headers_alone hids hseen hheaders hg,
          envelopesOf_single hreset, hinbox]
        rfl
      · have hmem : f ∈ (n .client).sent := by
          refine (hn.seen .server).subset ?_
          rw [hseen]
          exact List.mem_append_right _ (List.mem_singleton_self f)
        rw [hid]
        exact (hn.sent .client).owner f hmem
      · -- a stream with the ID would have been opened by another headers envelope
        rw [hid] at hg ⊢
        rw [List.count_eq_zero]
        intro hmem
        obtain ⟨o', ho', hid'⟩ := MuxConn.mem_ids.mp hmem
        obtain ⟨f', hf', hfid, hfheaders⟩ := hn.opened o' ho' fs (by rw [hframe]; exact hseen)
        have hnil := hn.headers_alone hids hseen hheaders hg
        rw [envelopesOf, List.map_eq_nil_iff, List.filter_eq_nil_iff] at hnil
        refine hnil f' hf' ?_
        have hfreset : f'.env.isReset = false := by
          rw [Envelope.isReset, hfheaders]
          decide
        simp [hfid, hid', hfreset]

/-- What a client opens is fresh, if its ID is new. -/
theorem NetInv.client_fresh (hn : NetInv n) {o : StreamObject}
    (hnew : o.stream.id ∉ (n .client).ids) (hinbox : o.stream.inbox = []) :
    MuxConn.Fresh (Good n) (n .client) o := by
  refine ⟨fun h f hfound heq => ?_, fun _ => ?_⟩
  · obtain ⟨o', ho', hid, -⟩ := (hn.received .client).found h f hfound
    refine hnew (MuxConn.mem_ids.mpr ⟨o', List.mem_of_getElem? ho', ?_⟩)
    rw [hid, heq]
  · have hpre : envelopesOf o.stream.id (n .client).seen <+:
        envelopesOf o.stream.id (n .server).sent := envelopesOf_mono (hn.seen .client)
    have hnone := (hn.sent .server).envelopesOf_eq_nil fun hmem => hnew (hn.ids _ hmem)
    rw [hnone] at hpre
    rw [List.prefix_nil.mp hpre, hinbox]

-- ============================================================================
-- One step
-- ============================================================================

theorem Net.step_cases {r : Role} {ev : ConnEvent} (hstep : n.step (r, ev) = some n') :
    ∃ c, n.carries r ev = true ∧ (n r).step ev = some c ∧ n' = Function.update n r c := by
  unfold Net.step at hstep
  split at hstep
  · rename_i hcarries
    obtain ⟨c, hc, rfl⟩ := Option.map_eq_some_iff.mp hstep
    exact ⟨c, hcarries, hc, rfl⟩
  · cases hstep

/-- The frame read is the next one of the other end. -/
theorem Net.seen_step {r : Role} (hbefore : (n r).seen <+: (n r.peer).sent) {ev : ConnEvent}
    {c : MuxConn} (hcarries : n.carries r ev = true) (hloop : Looped ev (n r) c) :
    c.seen <+: (n r.peer).sent := by
  cases hloop with
  | same hseen _ => exact hseen ▸ hbefore
  | done hseen _ => exact hseen ▸ hbefore
  | took f hev hseen _ _ =>
      subst hev
      have hnext : (n r.peer).sent[(n r).seen.length]? = some f := by
        simpa [Net.carries, ConnEvent.takes] using hcarries
      obtain ⟨more, hmore⟩ := hbefore
      rw [← hmore, List.getElem?_append_right (Nat.le_refl _), Nat.sub_self] at hnext
      obtain ⟨rest, rfl⟩ : ∃ rest, more = f :: rest := by
        match more with
        | [] => cases hnext
        | g :: rest =>
            obtain rfl : g = f := by simpa using hnext
            exact ⟨rest, rfl⟩
      rw [hseen]
      exact ⟨rest, by simpa using hmore⟩

theorem NetInv.step_server (hn : NetInv n) (hids : (n .client).ids.Nodup) {ev : ConnEvent}
    {c : MuxConn} (hcarries : n.carries .server ev = true) (hstep : (n .server).step ev = some c) :
    NetInv (Function.update n .server c) := by
  have hw := MuxConn.wrote_step hstep
  obtain ⟨hloop, hrole⟩ := MuxConn.looped_step hstep
  have hgood : Good (Function.update n .server c) = Good n := rfl
  have hopened : ∀ {o}, c.objs = (n .server).objs ++ [o] → Opens (n .server) c o :=
    fun hobjs => hw.opens hobjs
  refine
    { role := ?_
      received := ?_
      sent := ?_
      seen := ?_
      opened := hn.opened.step hloop hw (hn.role .server) (hn.received .server)
      ids := ?_
      unique := ?_ }
  · intro r
    cases r with
    | client => exact hn.role .client
    | server => exact hrole.trans (hn.role .server)
  · intro r
    rw [hgood]
    cases r with
    | client => exact hn.received .client
    | server =>
        exact (hn.received .server).step hstep fun o hobjs =>
          (hn.server_fresh hids (hopened hobjs)).1
  · intro r
    cases r with
    | client => exact hn.sent .client
    | server => exact (hn.sent .server).step hw
  · intro r
    cases r with
    | client => exact (hn.seen .client).trans hw.sent_grow
    | server => exact Net.seen_step (hn.seen _) hcarries hloop
  · intro id hid
    obtain ⟨o', ho', rfl⟩ := MuxConn.mem_ids.mp hid
    rcases hw.back ho' with ⟨o, ho, hsame, -⟩ | ⟨hobjs, hopens⟩
    · exact hsame ▸ hn.ids _ (MuxConn.mem_ids.mpr ⟨o, ho, rfl⟩)
    · exact (hn.server_fresh hids hopens).2.1
  · intro id hg
    rw [hgood] at hg
    show c.ids.count id ≤ 1
    rcases hw.ids_cases with hsame | ⟨o, hobjs, hlast⟩
    · rw [hsame]
      exact hn.unique id hg
    · rw [hlast, List.count_append]
      have hold := hn.unique id hg
      by_cases hid : o.stream.id = id
      · subst hid
        have hnone := (hn.server_fresh hids (hopened hobjs)).2.2 hg
        have hself : [o.stream.id].count o.stream.id = 1 := List.count_singleton_self
        omega
      · rw [List.count_eq_zero.mpr (fun hmem => hid (List.mem_singleton.mp hmem).symm)]
        omega

theorem NetInv.step_client (hn : NetInv n) {ev : ConnEvent} {c : MuxConn}
    (hcarries : n.carries .client ev = true) (hstep : (n .client).step ev = some c)
    (hids : c.ids.Nodup) : NetInv (Function.update n .client c) := by
  have hw := MuxConn.wrote_step hstep
  obtain ⟨hloop, hrole⟩ := MuxConn.looped_step hstep
  have hgood : ∀ id, Good (Function.update n .client c) id → Good n id :=
    fun _ hg => Good.of_wrote hw hg
  refine
    { role := ?_
      received := ?_
      sent := ?_
      seen := ?_
      opened := hn.opened
      ids := fun id hid => hw.ids_grow.subset (hn.ids id hid)
      unique := fun id hg => hn.unique id (hgood id hg) }
  · intro r
    cases r with
    | client => exact hrole.trans (hn.role .client)
    | server => exact hn.role .server
  · intro r
    have hrecv := (hn.received r).mono hgood
    cases r with
    | server => exact hrecv
    | client =>
        refine hrecv.step hstep fun o (hobjs : c.objs = _) => ?_
        have hnew : o.stream.id ∉ (n .client).ids := by
          intro hmem
          rw [MuxConn.ids, hobjs, List.map_append, List.nodup_append] at hids
          exact hids.2.2 _ hmem _ (List.mem_singleton_self _) rfl
        have hinbox : o.stream.inbox = [] := by
          cases hw.opens hobjs with
          | client _ hinbox => exact hinbox
          | server _ hserver _ _ _ _ _ =>
              rw [hn.role .client] at hserver
              cases hserver
        have hfresh := hn.client_fresh hnew hinbox
        exact ⟨hfresh.unfound, fun hg => hfresh.seen (hgood _ hg)⟩
  · intro r
    cases r with
    | client => exact (hn.sent .client).step hw
    | server => exact hn.sent .server
  · intro r
    cases r with
    | client => exact Net.seen_step (hn.seen _) hcarries hloop
    | server => exact (hn.seen .server).trans hw.sent_grow

theorem NetInv.step (hn : NetInv n) {ev : Role × ConnEvent} (hstep : net.step n ev = some n')
    (hids : (n' .client).ids.Nodup) : NetInv n' := by
  obtain ⟨r, ev⟩ := ev
  obtain ⟨c, hcarries, hc, rfl⟩ := Net.step_cases hstep
  cases r with
  | client => exact hn.step_client hcarries hc hids
  | server => exact hn.step_server hids hcarries hc

theorem Net.ids_grow {ev : Role × ConnEvent} (hstep : net.step n ev = some n') :
    (n .client).ids <+: (n' .client).ids := by
  obtain ⟨r, ev⟩ := ev
  obtain ⟨c, -, hc, rfl⟩ := Net.step_cases hstep
  cases r with
  | client => exact (MuxConn.wrote_step hc).ids_grow
  | server => exact List.prefix_rfl

theorem net_inv {evs : List (Role × ConnEvent)} (hrun : net.run evs = some n)
    (hids : (n .client).ids.Nodup) : NetInv n := by
  refine net.exec_invariant (I := fun n => (n .client).ids.Nodup → NetInv n) ?_
    (fun _ => net_init_inv) hrun hids
  intro n ev n' hn hstep hids
  have hbefore := hids.sublist (Net.ids_grow hstep).sublist
  exact (hn hbefore).step hstep hids

-- ============================================================================
-- Order
-- ============================================================================

/-- Two streams of one RPC: each end has read a prefix of what the other one
    has written. -/
structure InOrderPair (client server : StreamObject) : Prop where
  up : server.returned <+: client.wrote
  down : client.returned <+: server.wrote

/-- Whatever the interleaving, while the client issues no stream ID twice: a
    stream that opens with its only headers envelope has at most one stream
    at the server, the two read prefixes of what the other wrote, and without
    one at the server nothing is read at the client. -/
theorem envelopes_in_order (evs : List (Role × ConnEvent)) (n : Net)
    (hrun : net.run evs = some n) (hids : (n .client).ids.Nodup) (o : StreamObject)
    (ho : o ∈ (n .client).objs) (hheaders : HeadersFirst o.wrote) :
    (n .server).ids.count o.stream.id ≤ 1 ∧
      (∀ s ∈ (n .server).objs, s.stream.id = o.stream.id → InOrderPair o s) ∧
      (o.stream.id ∉ (n .server).ids → o.returned = []) := by
  have hn := net_inv hrun hids
  have hone : (n .client).ids.count o.stream.id ≤ 1 := List.nodup_iff_count.mp hids _
  -- the ID belongs to this stream alone, so it is good
  have hgood : Good n o.stream.id := by
    intro o' ho' hid
    have hu : o'.wrote = o.wrote := by
      rw [← (hn.sent .client).wrote o ho hone, ← hid]
      exact ((hn.sent .client).wrote o' ho' (hid ▸ hone)).symm
    exact hu ▸ hheaders
  have hcount := hn.unique _ hgood
  obtain ⟨h, hh⟩ := List.getElem?_of_mem ho
  have hdown : o.returned <+: envelopesOf o.stream.id (n .server).sent :=
    ((hn.received .client).returned h o hh hgood).trans (envelopesOf_mono (hn.seen .client))
  refine ⟨hcount, fun s hs hid => ⟨?_, ?_⟩, fun hnone => ?_⟩
  · obtain ⟨j, hj⟩ := List.getElem?_of_mem hs
    have hup := (hn.received .server).returned j s hj (hid ▸ hgood)
    have hsent := (hn.sent .client).wrote o ho hone
    rw [hid] at hup
    exact hsent ▸ hup.trans (envelopesOf_mono (hn.seen .server))
  · have hsent := (hn.sent .server).wrote s hs (hid ▸ hcount)
    rw [hid] at hsent
    exact hsent ▸ hdown
  · rw [(hn.sent .server).envelopesOf_eq_nil hnone] at hdown
    exact List.prefix_nil.mp hdown

/-- A call with one message up and the response headers down. -/
def shortCall : List (Role × ConnEvent) :=
  [ (.client, .newStream false)
  , (.client, .write 0 ⟨flagEnvelopeHeaders, [104]⟩), (.client, .task 0)
  , (.client, .write 0 ⟨0, [1, 2]⟩), (.client, .task 0)
  , (.server, .recv ⟨1, ⟨flagEnvelopeHeaders, [104]⟩⟩), (.server, .advance), (.server, .advance)
  , (.server, .recv ⟨1, ⟨0, [1, 2]⟩⟩), (.server, .advance), (.server, .advance)
  , (.server, .read 0), (.server, .read 0)
  , (.server, .write 0 ⟨flagEnvelopeHeaders, [99]⟩), (.server, .task 0)
  , (.client, .recv ⟨1, ⟨flagEnvelopeHeaders, [99]⟩⟩), (.client, .advance), (.client, .advance)
  , (.client, .read 0) ]

theorem short_call_in_order :
    ∃ (n : Net) (o s : StreamObject), net.run shortCall = some n ∧ (n .client).objs = [o] ∧
      (n .server).objs = [s] ∧ InOrderPair o s ∧
      s.returned = [⟨flagEnvelopeHeaders, [104]⟩, ⟨0, [1, 2]⟩] ∧
      o.returned = [⟨flagEnvelopeHeaders, [99]⟩] := by
  have hrun : ∃ n, net.run shortCall = some n ∧
      (n .client).objs =
        [{ stream := { id := 1 }, wrote := [⟨flagEnvelopeHeaders, [104]⟩, ⟨0, [1, 2]⟩],
           returned := [⟨flagEnvelopeHeaders, [99]⟩] }] ∧
      (n .server).objs =
        [{ stream := { id := 1, cancel := true }, wrote := [⟨flagEnvelopeHeaders, [99]⟩],
           returned := [⟨flagEnvelopeHeaders, [104]⟩, ⟨0, [1, 2]⟩] }] :=
    ⟨_, rfl, rfl, rfl⟩
  obtain ⟨n, hn, hclient, hserver⟩ := hrun
  have hids : (n .client).ids.Nodup := by
    rw [MuxConn.ids, hclient]
    decide
  have horder := envelopes_in_order shortCall n hn hids _ (hclient ▸ List.mem_singleton_self _)
    (by decide)
  exact ⟨n, _, _, hn, hclient, hserver,
    horder.2.1 _ (hserver ▸ List.mem_singleton_self _) rfl, rfl, rfl⟩

end ConnectWebSocket
end BidiWeb
