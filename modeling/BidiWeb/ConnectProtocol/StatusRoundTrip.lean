/-
  BidiWeb.ConnectProtocol.StatusRoundTrip

  An end-stream that one side has marshalled says the same to the other: no
  error if there was none, else its code, message and details, and the
  trailers.  The debug text of a detail is the one thing not kept.
-/

import BidiWeb.ConnectProtocol.RoundTrip

namespace BidiWeb
namespace ConnectProtocol

open BidiWeb.Lib
open BidiWeb.Lib.Json
open BidiWeb.Core (Code)

/-- What `connectrpc.com/connect` encodes on one side, it decodes on the other. -/
structure Understands (lib peer : Library) : Prop where
  code : ∀ c : Code, 1 ≤ c → c ≤ 16 → peer.codeOfText (lib.codeText c) = some c
  binary : ∀ value, peer.decodeBinaryHeader (encodeBase64 value) = some value

/-- The debug text leaves room for the four levels that an end-stream puts
    around it. -/
def DebugFits (lib : Library) (d : ErrorDetail) : Prop :=
  debugText lib d = [] ∨
    (Json.parse (maxNestingDepth - 4) (Unicode.decodeUtf8Bytewise (debugText lib d))).isSome

/-- A detail as it is received. -/
def withoutDebug (d : ErrorDetail) : ErrorDetail := { type := d.type, value := d.value }

variable {lib peer : Library}

/-- Fields of one name are found by that name and by no other. -/
theorem filter_name {fields : List Field} {n : GoString} (h : ∀ f ∈ fields, f.name = n)
    (name : GoString) :
    fields.filter (fun f => f.name.map foldRune = name.map foldRune) =
      if n.map foldRune = name.map foldRune then fields else [] := by
  split
  · rename_i heq
    apply List.filter_eq_self.mpr
    intro f hf
    rw [h f hf]
    exact decide_eq_true heq
  · rename_i hne
    apply List.filter_eq_nil_iff.mpr
    intro f hf
    rw [h f hf]
    simpa using hne

/-- A string under a name. -/
def stringField (name s : GoString) : Field where
  name
  text := marshalString s
  value := stringJson s

theorem name_of_mem_singleton (f : Field) : ∀ g ∈ [f], g.name = f.name := by
  intro g hg
  rw [List.mem_singleton.mp hg]

-- ============================================================================
-- Details
-- ============================================================================

/-- The `debug` of a detail, if it has one. -/
theorem marshalDebug_some {d : ErrorDetail} (hdebug : DebugFits lib d) :
    ∃ debug : List Field,
      marshalDebug lib d = some (debug.map fun f => (f.name, f.text)) ∧
      (∀ f ∈ debug, f.name = "debug".toList) ∧
      ∀ f ∈ debug, Reads (maxNestingDepth - 4) f.text f.value := by
  unfold marshalDebug
  rcases hdebug with hnil | hsome
  · exact ⟨[], by rw [if_pos hnil]; rfl, by simp, by simp⟩
  · obtain ⟨v, hv⟩ := Option.isSome_iff_exists.mp hsome
    have hne : debugText lib d ≠ [] := by
      intro hnil
      rw [hnil] at hv
      cases hv
    have hcompact : appendCompact (Unicode.decodeUtf8Bytewise (debugText lib d)) =
        some (compactJson false (Unicode.decodeUtf8Bytewise (debugText lib d))) := by
      rw [appendCompact, parse_deeper (Nat.sub_le _ _) hv, Option.map_some]
    refine ⟨[⟨"debug".toList, compactJson false (Unicode.decodeUtf8Bytewise (debugText lib d)), v⟩],
      ?_, name_of_mem_singleton _, ?_⟩
    · rw [if_neg hne, hcompact]
      rfl
    · intro f hf
      obtain rfl := List.mem_singleton.mp hf
      exact reads_compactJson hv

theorem marshalDetail_some (hpeer : Understands lib peer) {d : ErrorDetail}
    (hdebug : DebugFits lib d) :
    ∃ text v, marshalDetail lib (some d) = some text ∧ Reads (maxNestingDepth - 3) text v ∧
      unmarshalWireDetail peer v = some (some (withoutDebug d)) := by
  obtain ⟨debug, hmarshal, hnames, hreads⟩ := marshalDebug_some hdebug
  let fields : List Field :=
    [stringField "type".toList d.type.toList] ++
      [stringField "value".toList (encodeBase64 d.value)] ++ debug
  have htypeName : ∀ f ∈ [stringField "type".toList d.type.toList], f.name = "type".toList :=
    name_of_mem_singleton _
  have hvalueName : ∀ f ∈ [stringField "value".toList (encodeBase64 d.value)],
      f.name = "value".toList := name_of_mem_singleton _
  have hobject : Reads (maxNestingDepth - 3) (marshalObject (fields.map fun f => (f.name, f.text)))
      (fieldsJson fields) := by
    apply @reads_marshalObject 9996
    intro f hf
    rcases List.mem_append.mp hf with hf | hf
    · rcases List.mem_append.mp hf with hf | hf
      · rw [List.mem_singleton.mp hf]
        exact reads_marshalString _ _
      · rw [List.mem_singleton.mp hf]
        exact reads_marshalString _ _
    · exact hreads f hf
  -- the encoder compacts the text of the detail once more
  have hparse := parse_of_reads hobject
  refine ⟨_, fieldsJson fields, ?_, reads_compactJson hparse, ?_⟩
  · rw [marshalDetail, marshalWireDetail, hmarshal]
    show appendCompact (marshalObject (fields.map fun f => (f.name, f.text))) = _
    rw [appendCompact, parse_deeper (Nat.sub_le _ _) hparse, Option.map_some]
  · have htype : fieldValues "type".toList
        (fields.map fun f => (Unicode.encodeUtf16 f.name, f.value)) =
          [stringJson d.type.toList] := by
      rw [fieldValues_map, List.filter_append, List.filter_append, filter_name htypeName,
        filter_name hvalueName, filter_name hnames, if_pos rfl, if_neg (by decide),
        if_neg (by decide)]
      rfl
    have hvalue : fieldValues "value".toList
        (fields.map fun f => (Unicode.encodeUtf16 f.name, f.value)) =
          [stringJson (encodeBase64 d.value)] := by
      rw [fieldValues_map, List.filter_append, List.filter_append, filter_name htypeName,
        filter_name hvalueName, filter_name hnames, if_neg (by decide), if_pos rfl,
        if_neg (by decide)]
      rfl
    simp only [fieldsJson, unmarshalWireDetail, htype, hvalue, List.foldlM_cons, List.foldlM_nil,
      unmarshalString_stringJson, Option.bind_eq_bind, Option.bind_some, Option.pure_def,
      hpeer.binary, String.ofList_toList, withoutDebug]

theorem marshalDetails_some (hpeer : Understands lib peer) {details : List (Option ErrorDetail)}
    (hdebug : ∀ d, some d ∈ details → DebugFits lib d) :
    ∃ texts vs, details.mapM (marshalDetail lib) = some texts ∧
      List.Forall₂ (Reads (maxNestingDepth - 3)) texts vs ∧
      vs.mapM (unmarshalWireDetail peer) = some (details.map (Option.map withoutDebug)) := by
  induction details with
  | nil => exact ⟨[], [], rfl, .nil, rfl⟩
  | cons d details ih =>
      obtain ⟨texts, vs, htexts, hreads, hvs⟩ := ih fun d hd => hdebug d (List.mem_cons_of_mem _ hd)
      obtain ⟨text, v, htext, hread, hv⟩ : ∃ text v, marshalDetail lib d = some text ∧
          Reads (maxNestingDepth - 3) text v ∧
          unmarshalWireDetail peer v = some (d.map withoutDebug) := by
        cases d with
        | none => exact ⟨_, .null, rfl, reads_null _, rfl⟩
        | some d => exact marshalDetail_some hpeer (hdebug d List.mem_cons_self)
      refine ⟨text :: texts, v :: vs, ?_, .cons hread hreads, ?_⟩
      · simp [htext, htexts]
      · simp [hv, hvs]

-- ============================================================================
-- The error
-- ============================================================================

/-- The message of an error; an empty one is left out. -/
def messageFields (e : WireError) : List Field :=
  if e.message.isEmpty then [] else [stringField "message".toList e.message]

def detailsFields (texts : List (List Char)) (vs : List Json) : List Field :=
  if texts.isEmpty then [] else [⟨"details".toList, marshalArray texts, .arr vs⟩]

theorem unmarshal_messageFields (e : WireError) :
    ((messageFields e).map (·.value)).foldlM unmarshalString [] = some e.message := by
  unfold messageFields
  split
  · rename_i hempty
    rw [List.isEmpty_iff.mp hempty]
    rfl
  · exact unmarshalString_stringJson [] e.message

theorem unmarshal_detailsFields {depth : Nat} {texts : List (List Char)} {vs : List Json}
    {details : List (Option ErrorDetail)} (hreads : List.Forall₂ (Reads depth) texts vs)
    (hvs : vs.mapM (unmarshalWireDetail peer) = some details) :
    ((detailsFields texts vs).map (·.value)).foldlM
      (fun _ v => unmarshalWireDetails peer v) [] = some details := by
  unfold detailsFields
  split
  · rename_i hempty
    rw [List.isEmpty_iff.mp hempty] at hreads
    cases hreads
    exact hvs
  · simp [unmarshalWireDetails, hvs]

/-- An error as it is received: a code that the peer does not know is `0`. -/
def WireError.received (lib peer : Library) (e : WireError) : WireError where
  code := (peer.codeOfText (lib.codeText e.code)).getD 0
  message := e.message
  details := e.details.map (Option.map withoutDebug)

theorem marshalWireError_some (hpeer : Understands lib peer) {e : WireError}
    (hdebug : ∀ d, some d ∈ e.details → DebugFits lib d) :
    ∃ text fields, marshalWireError lib e = some text ∧
      Reads (maxNestingDepth - 1) text (fieldsJson fields) ∧
      unmarshalWireError peer {} (fieldsJson fields) = some (e.received lib peer) := by
  obtain ⟨texts, vs, htexts, hreads, hvs⟩ := marshalDetails_some hpeer hdebug
  let fields : List Field :=
    [stringField "code".toList (lib.codeText e.code)] ++ (messageFields e ++ detailsFields texts vs)
  have hcodeName : ∀ f ∈ [stringField "code".toList (lib.codeText e.code)],
      f.name = "code".toList := name_of_mem_singleton _
  have hmessageName : ∀ f ∈ messageFields e, f.name = "message".toList := by
    unfold messageFields
    split
    · simp
    · exact name_of_mem_singleton _
  have hdetailsName : ∀ f ∈ detailsFields texts vs, f.name = "details".toList := by
    unfold detailsFields
    split
    · simp
    · exact name_of_mem_singleton _
  have hvalues : ∀ f ∈ fields, Reads (maxNestingDepth - 2) f.text f.value := by
    intro f hf
    rcases List.mem_append.mp hf with hf | hf
    · rw [List.mem_singleton.mp hf]
      exact reads_marshalString _ _
    · rcases List.mem_append.mp hf with hf | hf
      · unfold messageFields at hf
        split at hf
        · cases hf
        · rw [List.mem_singleton.mp hf]
          exact reads_marshalString _ _
      · unfold detailsFields at hf
        split at hf
        · cases hf
        · rw [List.mem_singleton.mp hf]
          exact reads_marshalArray hreads
  refine ⟨_, fields, ?_, @reads_marshalObject 9998 _ hvalues, ?_⟩
  · have hmessage : (messageFields e).map (fun f => (f.name, f.text)) =
        if e.message.isEmpty then [] else [("message".toList, marshalString e.message)] := by
      unfold messageFields
      split <;> rfl
    have hdetails : (detailsFields texts vs).map (fun f => (f.name, f.text)) =
        if texts.isEmpty then [] else [("details".toList, marshalArray texts)] := by
      unfold detailsFields
      split <;> rfl
    rw [marshalWireError, htexts, Option.map_some, List.map_append, List.map_append, hmessage,
      hdetails]
    rfl
  · have hcodeValues : fieldValues "code".toList
        (fields.map fun f => (Unicode.encodeUtf16 f.name, f.value)) =
          [stringJson (lib.codeText e.code)] := by
      rw [fieldValues_map, List.filter_append, List.filter_append, filter_name hcodeName,
        filter_name hmessageName, filter_name hdetailsName, if_pos rfl, if_neg (by decide),
        if_neg (by decide)]
      rfl
    have hmessageValues : fieldValues "message".toList
        (fields.map fun f => (Unicode.encodeUtf16 f.name, f.value)) =
          (messageFields e).map (·.value) := by
      rw [fieldValues_map, List.filter_append, List.filter_append, filter_name hcodeName,
        filter_name hmessageName, filter_name hdetailsName, if_neg (by decide), if_pos rfl,
        if_neg (by decide), List.nil_append, List.append_nil]
    have hdetailsValues : fieldValues "details".toList
        (fields.map fun f => (Unicode.encodeUtf16 f.name, f.value)) =
          (detailsFields texts vs).map (·.value) := by
      rw [fieldValues_map, List.filter_append, List.filter_append, filter_name hcodeName,
        filter_name hmessageName, filter_name hdetailsName, if_neg (by decide),
        if_neg (by decide), if_pos rfl, List.nil_append, List.nil_append]
    simp only [fieldsJson, unmarshalWireError, hcodeValues, hmessageValues, hdetailsValues,
      unmarshal_messageFields, unmarshal_detailsFields hreads hvs, List.foldlM_cons,
      List.foldlM_nil, unmarshalString_stringJson, Option.bind_eq_bind, Option.bind_some,
      Option.pure_def]
    rfl

/-- An error whose code is one of the protocol's keeps it. -/
theorem asError_received (hpeer : Understands lib peer) {e : WireError}
    (hcode : 1 ≤ e.code ∧ e.code ≤ 16) :
    (e.received lib peer).asError =
      .connect e.code (String.ofList e.message) true (e.details.map (Option.map withoutDebug)) := by
  have hrange : ¬ (e.code < 1 ∨ 16 < e.code) := by
    rintro (hlow | hhigh)
    · exact absurd hcode.1 (UInt32.not_le.mpr hlow)
    · exact absurd hcode.2 (UInt32.not_le.mpr hhigh)
  have hreceived : (e.received lib peer).code = e.code := by
    rw [WireError.received, hpeer.code e.code hcode.1 hcode.2]
    rfl
  rw [WireError.asError, hreceived]
  simp only [if_neg hrange]
  rfl

-- ============================================================================
-- The end-stream
-- ============================================================================

/-- An end-stream is read as the fields of its error say. -/
theorem unmarshalEndStream_of_fields {err : Option GoError} {errors : List Field}
    {received : Option WireError}
    (hmarshal : marshalError lib err = some (errors.map fun f => (f.name, f.text)))
    (hnames : ∀ f ∈ errors, f.name = "error".toList)
    (hreads : ∀ f ∈ errors, Reads (maxNestingDepth - 1) f.text f.value)
    (hunmarshal : (errors.map (·.value)).foldlM (unmarshalError peer) none = some received)
    (trailer : Header) :
    ∃ payload trailer', marshalEndStream lib err trailer = .ok payload ∧
      unmarshalEndStream peer payload = .ok (received.map WireError.asError, trailer') ∧
      ∀ k, trailer'.lookup k = trailer.lookup k := by
  have hmetadataName : ∀ f ∈ metadataFields trailer, f.name = "metadata".toList :=
    fun f hf => name_of_mem_metadataFields hf
  have hobject : Reads maxNestingDepth
      (marshalObject ((errors ++ metadataFields trailer).map fun f => (f.name, f.text)))
      (fieldsJson (errors ++ metadataFields trailer)) := by
    apply @reads_marshalObject 9999
    intro f hf
    rcases List.mem_append.mp hf with hf | hf
    · exact hreads f hf
    · exact reads_metadataFields 9997 trailer f hf
  have herrorValues : fieldValues "error".toList
      ((errors ++ metadataFields trailer).map fun f => (Unicode.encodeUtf16 f.name, f.value)) =
        errors.map (·.value) := by
    rw [fieldValues_map, List.filter_append, filter_name hnames, filter_name hmetadataName,
      if_pos rfl, if_neg (by decide), List.append_nil]
  have hmetadataValues : fieldValues "metadata".toList
      ((errors ++ metadataFields trailer).map fun f => (Unicode.encodeUtf16 f.name, f.value)) =
        (metadataFields trailer).map (·.value) := by
    rw [fieldValues_map, List.filter_append, filter_name hnames, filter_name hmetadataName,
      if_neg (by decide), if_pos rfl, List.nil_append]
  refine ⟨Unicode.encodeUtf8
      (marshalObject ((errors ++ metadataFields trailer).map fun f => (f.name, f.text))),
    insertAll ∅ (sortedEntries trailer), ?_, ?_, lookup_sortedEntries trailer⟩
  · rw [marshalEndStream, hmarshal]
    simp only
    rw [← metadataFields_texts, ← List.map_append]
  · rw [unmarshalEndStream, parseJson_encode, parse_of_reads hobject, Option.bind_some]
    simp only [fieldsJson, unmarshalEndStreamMessage, herrorValues, hmetadataValues, hunmarshal,
      unmarshal_metadataFields, Option.bind_eq_bind, Option.bind_some]

/-- Success needs no library to be understood. -/
theorem unmarshalEndStream_success (lib peer : Library) (trailer : Header) :
    ∃ payload trailer', marshalEndStream lib none trailer = .ok payload ∧
      unmarshalEndStream peer payload = .ok (none, trailer') := by
  obtain ⟨payload, trailer', hmarshal, hunmarshal, -⟩ :=
    @unmarshalEndStream_of_fields lib peer none [] none rfl (by simp) (by simp) rfl trailer
  exact ⟨payload, trailer', hmarshal, hunmarshal⟩

theorem unmarshalEndStream_marshalEndStream (hpeer : Understands lib peer) {err : Option GoError}
    (hdebug : ∀ e ∈ err, ∀ d, some d ∈ (newWireError e).details → DebugFits lib d)
    (trailer : Header) :
    ∃ payload trailer', marshalEndStream lib err trailer = .ok payload ∧
      unmarshalEndStream peer payload =
        .ok (err.map fun e => ((newWireError e).received lib peer).asError, trailer') ∧
      ∀ k, trailer'.lookup k = trailer.lookup k := by
  cases err with
  | none =>
      exact @unmarshalEndStream_of_fields lib peer none [] none rfl (by simp) (by simp) rfl trailer
  | some err =>
      obtain ⟨text, fields, htext, hreads, hunmarshal⟩ :=
        marshalWireError_some hpeer (hdebug err rfl)
      have hvalue : unmarshalError peer none (fieldsJson fields) =
          some (some ((newWireError err).received lib peer)) :=
        congrArg (Option.map some) hunmarshal
      refine @unmarshalEndStream_of_fields lib peer (some err)
        [⟨"error".toList, text, fieldsJson fields⟩] (some ((newWireError err).received lib peer))
        ?_ (name_of_mem_singleton _) ?_ ?_ trailer
      · rw [marshalError, htext]
        rfl
      · intro f hf
        rw [List.mem_singleton.mp hf]
        exact hreads
      · simp only [List.map_cons, List.map_nil, List.foldlM_cons, List.foldlM_nil, hvalue]
        rfl

-- ============================================================================
-- A library
-- ============================================================================

/-- The value of a base64 digit. -/
def base64Value (c : Char) : Option Nat := base64Digits.findIdx? (· = c)

/-- `base64.RawStdEncoding.DecodeString`, for what that encoding writes. -/
def decodeBase64 : List Char → Option Bytes
  | w :: x :: y :: z :: rest => do
      let n := (← base64Value w) * 0x40000 + (← base64Value x) * 0x1000 +
        (← base64Value y) * 0x40 + (← base64Value z)
      let bytes ← decodeBase64 rest
      some (UInt8.ofNat (n / 0x10000) :: UInt8.ofNat (n / 0x100) :: UInt8.ofNat n :: bytes)
  | [w, x, y] => do
      let n := (← base64Value w) * 0x1000 + (← base64Value x) * 0x40 + (← base64Value y)
      some [UInt8.ofNat (n / 0x400), UInt8.ofNat (n / 4)]
  | [w, x] => do
      let n := (← base64Value w) * 0x40 + (← base64Value x)
      some [UInt8.ofNat (n / 0x10)]
  | [_] => none
  | [] => some []

theorem base64Value_digit (n : Nat) : base64Value (encodeBase64.digit n) = some (n % 64) := by
  have hall : ∀ d < 64, base64Value (base64Digits.getD d 'A') = some d := by decide
  exact hall (n % 64) (Nat.mod_lt n (by decide))

theorem ofNat_of_mod {b : UInt8} {n : Nat} (h : n % 256 = b.toNat) : UInt8.ofNat n = b := by
  rw [← UInt8.toNat_inj, UInt8.toNat_ofNat', h]

/-- Four digits are three bytes. -/
theorem decodeBase64_four {n : Nat} (hn : n < 0x1000000) (rest : List Char) :
    decodeBase64 ([n / 0x40000, n / 0x1000, n / 0x40, n].map encodeBase64.digit ++ rest) =
      (decodeBase64 rest).map fun bytes =>
        UInt8.ofNat (n / 0x10000) :: UInt8.ofNat (n / 0x100) :: UInt8.ofNat n :: bytes := by
  have hdigits : n / 0x40000 % 64 * 0x40000 + n / 0x1000 % 64 * 0x1000 + n / 0x40 % 64 * 0x40 +
      n % 64 = n := by omega
  simp only [List.map_cons, List.map_nil, List.cons_append, List.nil_append, decodeBase64,
    base64Value_digit, Option.bind_eq_bind, Option.bind_some, hdigits]
  cases decodeBase64 rest <;> rfl

theorem decodeBase64_three {n : Nat} (hn : n < 0x40000) :
    decodeBase64 ([n / 0x1000, n / 0x40, n].map encodeBase64.digit) =
      some [UInt8.ofNat (n / 0x400), UInt8.ofNat (n / 4)] := by
  have hdigits : n / 0x1000 % 64 * 0x1000 + n / 0x40 % 64 * 0x40 + n % 64 = n := by omega
  simp only [List.map_cons, List.map_nil, decodeBase64, base64Value_digit, Option.bind_eq_bind,
    Option.bind_some, hdigits]

theorem decodeBase64_encodeBase64 (value : Bytes) :
    decodeBase64 (encodeBase64 value) = some value := by
  induction value using encodeBase64.induct with
  | case1 a b c rest ih =>
      have ha := a.toNat_lt
      have hb := b.toNat_lt
      have hc := c.toNat_lt
      rw [encodeBase64, decodeBase64_four (by omega), ih, Option.map_some,
        @ofNat_of_mod a _ (by omega), @ofNat_of_mod b _ (by omega), @ofNat_of_mod c _ (by omega)]
  | case2 a b =>
      have ha := a.toNat_lt
      have hb := b.toNat_lt
      rw [encodeBase64, decodeBase64_three (by omega), @ofNat_of_mod a _ (by omega),
        @ofNat_of_mod b _ (by omega)]
  | case3 a =>
      have ha := a.toNat_lt
      simp only [encodeBase64, List.map_cons, List.map_nil, decodeBase64, base64Value_digit,
        Option.bind_eq_bind, Option.bind_some]
      rw [@ofNat_of_mod a _ (by omega)]
  | case4 => rfl

/-- The names of the codes, from `1` on. -/
def codeNames : List GoString :=
  ["canceled", "unknown", "invalid_argument", "deadline_exceeded", "not_found", "already_exists",
    "permission_denied", "resource_exhausted", "failed_precondition", "aborted", "out_of_range",
    "unimplemented", "internal", "unavailable", "data_loss", "unauthenticated"].map String.toList

/-- A library that knows the codes of the protocol and no message type. -/
def plainLibrary : Library where
  jsonError := fun _ => .text "invalid JSON"
  codeOfText := fun text => (codeNames.findIdx? (· = text)).map fun n => UInt32.ofNat (n + 1)
  codeText := fun code => codeNames.getD (code.toNat - 1) []
  decodeBinaryHeader := decodeBase64
  detailDebug := fun _ => none

theorem understands_plainLibrary : Understands plainLibrary plainLibrary where
  code := by
    intro c hlow hhigh
    have hall : ∀ n < 16, (codeNames.findIdx? (· = codeNames.getD n [])) = some n := by decide
    have hlow' : 1 ≤ c.toNat := UInt32.le_iff_toNat_le.mp hlow
    have hhigh' : c.toNat ≤ 16 := UInt32.le_iff_toNat_le.mp hhigh
    simp only [plainLibrary, hall (c.toNat - 1) (by omega), Option.map_some,
      Nat.sub_add_cancel hlow',
      UInt32.ofNat_toNat]
  binary := decodeBase64_encodeBase64

end ConnectProtocol
end BidiWeb
