/-
  BidiWeb.BidiProtocol.Transfer

  Messages as the two callers of a stream see them, and as envelopes: what a
  `Send` puts into an envelope, a `Receive` on the other side takes out of
  it, if the header of this direction names the compressor that was used.
-/

import BidiWeb.BidiProtocol.CallHeaders
import Mathlib.Data.List.Forall2

namespace BidiWeb
namespace BidiProtocol

open BidiWeb.ConnectProtocol
open BidiWeb.Lib

variable {κ μ : Type}

-- ============================================================================
-- What the callers see
-- ============================================================================

/-- A `Send` that has succeeded, or a `Receive` that has returned a message. -/
inductive Transfer (μ : Type) where
  | sent (msg : μ)
  | received (msg : μ)

/-- What a `Send` of `msg` that returns `err` has sent. -/
def Transfer.ofSend (msg : μ) (err : Option GoError) : List (Transfer μ) :=
  match err with
  | none => [.sent msg]
  | some _ => []

def Transfer.sent? : Transfer μ → Option μ
  | .sent msg => some msg
  | .received _ => none

def Transfer.received? : Transfer μ → Option μ
  | .sent _ => none
  | .received msg => some msg

/-- The messages passed to `Send`. -/
def sentMessages (log : List (Transfer μ)) : List μ := log.filterMap Transfer.sent?

/-- The messages `Receive` has yielded. -/
def receivedMessages (log : List (Transfer μ)) : List μ := log.filterMap Transfer.received?

@[simp] theorem sentMessages_append (log log' : List (Transfer μ)) :
    sentMessages (log ++ log') = sentMessages log ++ sentMessages log' := List.filterMap_append

@[simp] theorem receivedMessages_append (log log' : List (Transfer μ)) :
    receivedMessages (log ++ log') = receivedMessages log ++ receivedMessages log' :=
  List.filterMap_append

@[simp] theorem receivedMessages_ofSend (msg : μ) (err : Option GoError) :
    receivedMessages (Transfer.ofSend msg err) = [] := by
  cases err <;> rfl

@[simp] theorem sentMessages_received (result : Option μ) :
    sentMessages (result.toList.map Transfer.received) = [] := by
  cases result <;> rfl

@[simp] theorem receivedMessages_received (result : Option μ) :
    receivedMessages (result.toList.map Transfer.received) = result.toList := by
  cases result <;> rfl

theorem filterMap_toList {α β : Type} (f : α → Option β) (o : Option α) :
    o.toList.filterMap f = (o.bind f).toList := by
  cases o with
  | none => rfl
  | some a =>
      cases h : f a with
      | none => simp [h]
      | some b => simp [h]

/-- A message that has been read where one was awaited. -/
def messageOf : Awaits × Except GoError Envelope → Option Envelope
  | (.message, .ok env) => if env.isMessage then some env else none
  | (.message, .error _) | (.headers, _) | (.endStream, _) => none

theorem messageOf_of_isMessage {env : Envelope} (h : env.isMessage = true) :
    messageOf (.message, .ok env) = some env := if_pos h

theorem messageOf_of_not_isMessage {env : Envelope} (h : env.isMessage = false)
    (awaits : Awaits) : messageOf (awaits, .ok env) = none := by
  cases awaits with
  | headers => rfl
  | message => exact if_neg (by simp [h])
  | endStream => rfl

namespace Session

/-- The envelopes read. -/
def received (s : Session κ) : List Envelope := s.reads.filterMap fun r => r.2.toOption

/-- The messages read. -/
def messages (s : Session κ) : List Envelope := s.reads.filterMap messageOf

theorem written_of_writeEnvelope {c : Conn κ} {s s' : Session κ} {env : Envelope}
    {err : Option GoError} (h : s.writeEnvelope c env = (err, s')) :
    s'.written = match err with
      | none => s.written ++ [env]
      | some _ => s.written := by
  have hwrites : s'.writes = s.writes ++ [(env, err)] := by
    obtain ⟨rfl, rfl⟩ := Prod.mk.inj h
    rfl
  rw [Session.written, hwrites, List.filter_append, List.map_append]
  cases err with
  | none => rfl
  | some err => exact List.append_nil _

theorem reads_of_writeEnvelope {c : Conn κ} {s s' : Session κ} {env : Envelope}
    {err : Option GoError} (h : s.writeEnvelope c env = (err, s')) : s'.reads = s.reads := by
  obtain ⟨rfl, rfl⟩ := Prod.mk.inj h
  rfl

theorem messages_of_writeEnvelope {c : Conn κ} {s s' : Session κ} {env : Envelope}
    {err : Option GoError} (h : s.writeEnvelope c env = (err, s')) : s'.messages = s.messages := by
  rw [messages, messages, reads_of_writeEnvelope h]

theorem messages_readEnvelope (c : Conn κ) (s : Session κ) (awaits : Awaits) :
    (s.readEnvelope c awaits).2.messages =
      s.messages ++ (messageOf (awaits, (s.readEnvelope c awaits).1)).toList := by
  show (s.reads ++ [(awaits, (c.readEnvelope s.conn).1)]).filterMap messageOf = _
  rw [List.filterMap_append]
  apply congrArg
  show _ = (messageOf (awaits, (c.readEnvelope s.conn).1)).toList
  cases h : messageOf (awaits, (c.readEnvelope s.conn).1) with
  | none => simp [h]
  | some env => simp [h]

end Session

-- ============================================================================
-- Flags
-- ============================================================================

/-- A message envelope is none of the others. -/
theorem flags_of_isMessage {env : Envelope} (h : env.isMessage = true) :
    env.flag ≠ flagEnvelopeHeaders ∧ env.flag ≠ flagEnvelopeEndStream ∧
      ¬ (env.flag ≠ flagEnvelopeData ∧ env.flag ≠ flagEnvelopeCompressed) := by
  rcases Envelope.isMessage_iff.mp h with h | h
  · rw [h]
    decide
  · rw [h]
    decide

theorem flags_of_not_isMessage {env : Envelope} (h : env.isMessage = false) :
    env.flag ≠ flagEnvelopeData ∧ env.flag ≠ flagEnvelopeCompressed := by
  rw [Envelope.isMessage, Bool.or_eq_false_iff, decide_eq_false_iff_not,
    decide_eq_false_iff_not] at h
  exact h

theorem exceeds_eq_false {limit : Int} (h : limit ≤ 0) (payload : Bytes) :
    exceeds payload limit = false := by
  rw [exceeds, Bool.and_eq_false_iff, decide_eq_false_iff_not]
  exact Or.inl (by omega)

-- ============================================================================
-- Messages as envelopes
-- ============================================================================

/-- What `codec` encodes `codec'` decodes. -/
def Codec.UndoneBy (codec codec' : Codec μ) : Prop :=
  ∀ msg payload, codec.marshalWrite msg = .ok payload → codec'.unmarshalRead payload = .ok msg

/-- What `c` compresses `c'` decompresses. -/
def Compressor.UndoneBy (c c' : Compressor) : Prop :=
  ∀ payload compressed, c.compress payload = .ok compressed → c'.decompress compressed = .ok payload

/-- `Send` makes `env` of `msg`. -/
def Encodes (codec : Codec μ) (compressor : Option Compressor) (sendMaxBytes : Int) (msg : μ)
    (env : Envelope) : Prop :=
  ∃ payload, codec.marshalWrite msg = .ok payload ∧
    encodePayload compressor sendMaxBytes payload = .ok env

/-- What `Receive` makes of a message envelope, without a size limit. -/
def decode (codec : Codec μ) (compressors : AList (fun _ : GoString => Compressor))
    (encoding : GoString) (env : Envelope) : Option μ :=
  match decodePayload compressors encoding env with
  | .ok payload => (codec.unmarshalRead payload).toOption
  | .error _ => none

variable {codec codec' : Codec μ} {compressor : Option Compressor} {sendMaxBytes : Int}

theorem Encodes.isMessage {msg : μ} {env : Envelope}
    (h : Encodes codec compressor sendMaxBytes msg env) : env.isMessage = true := by
  obtain ⟨payload, -, henv⟩ := h
  exact encodePayload_isMessage henv

/-- A message goes as it is, or compressed and flagged. -/
theorem Encodes.cases {msg : μ} {env : Envelope}
    (h : Encodes codec compressor sendMaxBytes msg env) :
    (env.flag = flagEnvelopeData ∧ codec.marshalWrite msg = .ok env.payload) ∨
      ∃ c payload, compressor = some c ∧ env.flag = flagEnvelopeCompressed ∧
        codec.marshalWrite msg = .ok payload ∧ c.compress payload = .ok env.payload := by
  obtain ⟨payload, hmarshal, henv⟩ := h
  unfold encodePayload at henv
  split at henv
  · rw [← limitSize_eq_ok henv]
    exact Or.inl ⟨rfl, hmarshal⟩
  · rename_i c
    split at henv
    · cases henv
    · rename_i compressed hcompress
      rw [← limitSize_eq_ok henv]
      refine Or.inr ⟨c, payload, rfl, rfl, hmarshal, ?_⟩
      unfold compress at hcompress
      split at hcompress
      · rename_i hok
        cases hcompress
        exact hok
      all_goals cases hcompress

/-- The receiver has a compressor under the announced name that undoes the
    sender's. -/
def Decompresses (compressor : Option Compressor)
    (compressors : AList (fun _ : GoString => Compressor)) (encoding : GoString) : Prop :=
  ∀ c ∈ compressor, ∃ c', compressors.lookup encoding = some c' ∧ c.UndoneBy c'

theorem decode_of_encodes {compressors : AList (fun _ : GoString => Compressor)}
    {encoding : GoString} {msg : μ} {env : Envelope} (hcodec : codec.UndoneBy codec')
    (hcompressor : Decompresses compressor compressors encoding)
    (h : Encodes codec compressor sendMaxBytes msg env) :
    decode codec' compressors encoding env = some msg := by
  rcases h.cases with ⟨hflag, hmarshal⟩ | ⟨c, payload, hc, hflag, hmarshal, hcompress⟩
  · have hplain : ¬ env.flag = flagEnvelopeCompressed := by
      rw [hflag]
      decide
    rw [decode, decodePayload, if_neg hplain]
    simp only [hcodec msg env.payload hmarshal]
    rfl
  · obtain ⟨c', hlookup, hundo⟩ := hcompressor c hc
    have hdecompress : decompress c' env.payload = .ok payload := by
      rw [decompress, hundo payload env.payload hcompress]
    rw [decode, decodePayload, if_pos hflag, hlookup]
    simp only [hdecompress, hcodec msg payload hmarshal]
    rfl

/-- What has been read of the messages is what was sent, as far as it goes. -/
theorem filterMap_decode {compressors : AList (fun _ : GoString => Compressor)}
    {encoding : GoString} {msgs : List μ} {envs read : List Envelope}
    (hcodec : codec.UndoneBy codec') (hcompressor : Decompresses compressor compressors encoding)
    (hsent : List.Forall₂ (Encodes codec compressor sendMaxBytes) msgs envs)
    (hread : List.IsPrefix read envs) :
    read.filterMap (decode codec' compressors encoding) = msgs.take read.length := by
  induction hsent generalizing read with
  | nil =>
      rw [List.prefix_nil.mp hread]
      rfl
  | @cons msg env msgs envs hmsg _ ih =>
      cases read with
      | nil => rfl
      | cons env' read =>
          obtain ⟨rfl, hrest⟩ := List.cons_prefix_cons.mp hread
          rw [List.filterMap_cons_some (decode_of_encodes hcodec hcompressor hmsg), ih hrest]
          rfl

-- ============================================================================
-- Announcements
-- ============================================================================

def contentEncoding : GoString := "Connect-Content-Encoding".toList
def acceptEncoding : GoString := "Connect-Accept-Encoding".toList

/-- The headers envelope `env` says `encoding` for `Connect-Content-Encoding`. -/
def Announces (range : RangeOrder (List GoString)) (env : Envelope) (encoding : GoString) : Prop :=
  env.flag = flagEnvelopeHeaders ∧
    ∃ headers, unmarshalHeaders range env.payload = some headers ∧
      headers.get contentEncoding = encoding

/-- `env` carries the headers `headers`. -/
structure Opens (env : Envelope) (headers : Header) : Prop where
  flag : env.flag = flagEnvelopeHeaders
  keys : WireKeys headers
  payload : marshalHeaders headers = .ok env.payload

theorem Opens.unmarshal {env : Envelope} {headers : Header} (h : Opens env headers)
    (range : RangeOrder (List GoString)) :
    ∃ headers', unmarshalHeaders range env.payload = some headers' ∧
      ∀ k, headers'.lookup k = headers.lookup k := by
  obtain ⟨data, headers', hdata, hunmarshal, hlookup⟩ :=
    unmarshalHeaders_marshalHeaders range h.keys
  obtain rfl : data = env.payload := Except.ok.inj (hdata.symm.trans h.payload)
  exact ⟨headers', hunmarshal, hlookup⟩

theorem Opens.announces {env : Envelope} {headers : Header} (h : Opens env headers)
    (range : RangeOrder (List GoString)) {encoding : GoString}
    (hencoding : headers.get contentEncoding = encoding) : Announces range env encoding := by
  obtain ⟨headers', hunmarshal, hlookup⟩ := h.unmarshal range
  exact ⟨h.flag, headers', hunmarshal, (get_congr contentEncoding (hlookup _)).trans hencoding⟩

end BidiProtocol
end BidiWeb
