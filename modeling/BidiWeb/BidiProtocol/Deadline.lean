/-
  BidiWeb.BidiProtocol.Deadline

  Deadlines on their way to the handler.  What is left of one is written in
  whole milliseconds, or not at all, and read into nanoseconds, which are an
  `int64`.
-/

import BidiWeb.BidiProtocol.ClientTransfer

namespace BidiWeb
namespace BidiProtocol

open BidiWeb.ConnectProtocol

variable {κ μ : Type}

-- ============================================================================
-- Durations
-- ============================================================================

/-- `time.Until` of a deadline that is `remaining` ns away: a `Duration`, the
    nearest one if there is none. -/
def timeUntil (remaining : Int) : Int :=
  max (-0x8000000000000000) (min remaining 0x7FFFFFFFFFFFFFFF)

/-- `Duration.Milliseconds` -/
def milliseconds (d : Int) : Int := d.tdiv 1000000

/-- A call whose deadline is `remaining` ns away. -/
def ClientConfig.withDeadline (cfg : ClientConfig κ μ) (remaining : Int) : ClientConfig κ μ :=
  { cfg with timeoutMs := some (milliseconds (timeUntil remaining)) }

/-- A decimal digit. -/
def IsDecimal (c : Char) : Prop := '0' ≤ c ∧ c ≤ '9'

theorem foldl_digits {ds : List Char} (hds : ∀ c ∈ ds, IsDecimal c) (m : Nat) :
    ds.foldl (fun n c => n * 10 + (c.toNat - '0'.toNat : Int)) (m : Int) =
      Nat.ofDigitChars 10 ds m := by
  induction ds generalizing m with
  | nil => rw [List.foldl_nil, Nat.ofDigitChars_nil]
  | cons c ds ih =>
      have hlow : '0'.toNat ≤ c.toNat := (hds c List.mem_cons_self).1
      have hstep : (m : Int) * 10 + (c.toNat - '0'.toNat : Int) =
          ((10 * m + (c.toNat - '0'.toNat) : Nat) : Int) := by
        omega
      rw [List.foldl_cons, Nat.ofDigitChars_cons, hstep]
      exact ih (fun c' hc' => hds c' (List.mem_cons_of_mem c hc')) _

/-- A text of digits has no sign. -/
theorem parseInt64_of_digits {ds : List Char} (hne : ds ≠ []) (hds : ∀ c ∈ ds, IsDecimal c)
    (hlt : Nat.ofDigitChars 10 ds 0 < 0x8000000000000000) :
    parseInt64 ds = some (Nat.ofDigitChars 10 ds 0 : Int) := by
  have hall : ds.all (fun c => '0' ≤ c ∧ c ≤ '9') = true :=
    List.all_eq_true.mpr fun c hc => decide_eq_true (hds c hc)
  have hfold := foldl_digits hds 0
  unfold parseInt64
  split
  rename_i negative digits hsign
  split at hsign
  · exact absurd (hds _ List.mem_cons_self).1 (by decide)
  · exact absurd (hds _ List.mem_cons_self).1 (by decide)
  · obtain ⟨rfl, rfl⟩ := Prod.mk.inj hsign
    have hdigits : ¬ (ds = [] ∨ ¬ ds.all (fun c => '0' ≤ c ∧ c ≤ '9') = true) := by
      rintro (hnil | hnot)
      · exact hne hnil
      · exact hnot hall
    rw [if_neg hdigits]
    rw [show ((0 : Nat) : Int) = 0 from rfl] at hfold
    simp only [hfold, Bool.false_eq_true, if_false]
    rw [if_pos (by omega)]

/-- `strconv.ParseInt` undoes `strconv.FormatInt`. -/
theorem parseInt64_toDigits {n : Nat} (hn : n < 0x8000000000000000) :
    parseInt64 (Nat.toDigits 10 n) = some (n : Int) := by
  have hdigits : ∀ c ∈ Nat.toDigits 10 n, IsDecimal c := by
    intro c hc
    have hdigit := Nat.isDigit_of_mem_toDigits (by omega) (by omega) hc
    rw [Char.isDigit, Bool.and_eq_true, decide_eq_true_eq, decide_eq_true_eq] at hdigit
    exact hdigit
  have hvalue : Nat.ofDigitChars 10 (Nat.toDigits 10 n) 0 = n := Nat.ofDigitChars_ten_toDigits
  have hparse := parseInt64_of_digits Nat.toDigits_ne_nil hdigits (hvalue.symm ▸ hn)
  rw [hvalue] at hparse
  exact hparse

/-- The milliseconds that a `Duration` can hold. -/
theorem millisecondsToDuration_eq_iff {ms : Int} (hms : 0 < ms) :
    millisecondsToDuration ms = ms * 1000000 ↔ ms ≤ 9223372036854 := by
  unfold millisecondsToDuration
  constructor
  · intro heq
    have hlt := @Int.bmod_lt (ms * 1000000) 0x10000000000000000 (by decide)
    omega
  · intro hle
    apply Int.bmod_eq_of_le
    · omega
    · omega

/-- The whole milliseconds of a `Duration` are no more than it. -/
theorem millisecondsToDuration_milliseconds_le {d : Int} (hd : 0 < d)
    (hmax : d ≤ 0x7FFFFFFFFFFFFFFF) : millisecondsToDuration (milliseconds d) ≤ d := by
  unfold millisecondsToDuration milliseconds
  rw [Int.tdiv_eq_ediv_of_nonneg (by omega), Int.bmod_eq_of_le]
  · omega
  · omega
  · omega

-- ============================================================================
-- The client
-- ============================================================================

def timeoutKey : GoString := "Connect-Timeout-Ms".toList

/-- The headers that the caller has set. -/
def callerHeader (caller : Option (List (GoString × List GoString))) : Header :=
  match caller with
  | some hs => setAllValues ∅ hs
  | none => ∅

/-- The `Connect-Timeout-Ms` of a request: what is left of the deadline, or
    what the caller has set. -/
theorem get_timeout (cfg : ClientConfig κ μ) (conn : κ)
    (caller : Option (List (GoString × List GoString))) :
    ((ClientStream.freshStream conn caller).requestHeader cfg).get timeoutKey =
      match cfg.timeoutMs with
      | some ms => if 0 < ms then Nat.toDigits 10 ms.toNat else (callerHeader caller).get timeoutKey
      | none => (callerHeader caller).get timeoutKey := by
  let base : Header :=
    (ClientStream.freshStream conn caller).callInfo.elim ∅ fun info =>
      Header.insertAll ∅ info.requestHeader
  let typed := (base.set ":path".toList cfg.procedure).set "Content-Type".toList
    ("application/connect+".toList ++ cfg.codec.name)
  let encoded :=
    if cfg.opts.sendCompressor ≠ [] ∧ cfg.opts.sendCompressor ≠ compressionNameIdentity then
      typed.set contentEncoding cfg.opts.sendCompressor
    else typed
  let accepting :=
    if cfg.opts.acceptCompression ≠ [] then
      encoded.set acceptEncoding cfg.opts.acceptCompression
    else encoded
  -- none of these is the timeout
  have hothers : accepting.get timeoutKey = (callerHeader caller).get timeoutKey := by
    have hbase : base.get timeoutKey = (callerHeader caller).get timeoutKey := by
      cases caller with
      | none => rfl
      | some hs => exact get_congr _ (insertAll_empty_lookup _ _)
    rw [ClientStream.get_ite_set_of_ne _ _ (by decide),
      ClientStream.get_ite_set_of_ne _ _ (by decide), get_set_of_ne _ _ (by decide),
      get_set_of_ne _ _ (by decide), hbase]
  have hheader : (ClientStream.freshStream conn caller).requestHeader cfg =
      match cfg.timeoutMs with
      | some ms =>
          if 0 < ms then accepting.set timeoutKey (Nat.toDigits 10 ms.toNat) else accepting
      | none => accepting := by
    cases caller <;> rfl
  rw [hheader]
  cases cfg.timeoutMs with
  | none => exact hothers
  | some ms =>
      simp only
      split
      · exact get_set_self _ _ _
      · exact hothers

/-- Whatever order the headers are visited in, the handler has a deadline that
    is at most `remaining` ns away. -/
def Propagates (cfg : ClientConfig κ μ) (conn : κ)
    (caller : Option (List (GoString × List GoString))) (remaining : Int) : Prop :=
  ∃ payload err,
    ((ClientStream.freshStream conn caller).sendHeaders
      (cfg.withDeadline remaining)).2.session.writes =
      [(⟨flagEnvelopeHeaders, payload⟩, err)] ∧
    ∀ rangeHeaders, ∃ headers, unmarshalHeaders rangeHeaders payload = some headers ∧
      ∃ timeout, requestTimeout headers = some timeout ∧ timeout ≤ remaining

theorem requestTimeout_congr {h h' : Header} (hget : h'.get timeoutKey = h.get timeoutKey) :
    requestTimeout h' = requestTimeout h := by
  unfold requestTimeout
  rw [show h'.get "Connect-Timeout-Ms".toList = h.get "Connect-Timeout-Ms".toList from hget]

/-- The timeout that `HandleRPC` reads in the headers of a request. -/
theorem propagates_iff_timeout (cfg : ClientConfig κ μ) (conn : κ)
    (caller : Option (List (GoString × List GoString))) (remaining : Int) :
    Propagates cfg conn caller remaining ↔
      ∃ timeout, requestTimeout
        ((ClientStream.freshStream conn caller).requestHeader (cfg.withDeadline remaining)) =
          some timeout ∧ timeout ≤ remaining := by
  obtain ⟨payload, err, hwrites, hread⟩ :=
    ClientStream.headers_written (cfg.withDeadline remaining) conn caller
  constructor
  · rintro ⟨payload', err', hwrites', hread'⟩
    rw [hwrites] at hwrites'
    cases hwrites'
    obtain ⟨headers, hunmarshal, hlookup⟩ := hread .stored
    obtain ⟨headers', hunmarshal', htimeout⟩ := hread' .stored
    obtain rfl : headers' = headers := Option.some.inj (hunmarshal'.symm.trans hunmarshal)
    rw [requestTimeout_congr (get_congr _ (hlookup _))] at htimeout
    exact htimeout
  · intro htimeout
    refine ⟨payload, err, hwrites, fun rangeHeaders => ?_⟩
    obtain ⟨headers, hunmarshal, hlookup⟩ := hread rangeHeaders
    refine ⟨headers, hunmarshal, ?_⟩
    rw [requestTimeout_congr (get_congr _ (hlookup _))]
    exact htimeout

theorem requestTimeout_eq_some_iff {headers : Header} {timeout : Int} :
    requestTimeout headers = some timeout ↔
      ∃ ms, parseInt64 (headers.get timeoutKey) = some ms ∧ 0 < ms ∧
        millisecondsToDuration ms = timeout := by
  unfold requestTimeout timeoutKey
  cases parseInt64 (headers.get "Connect-Timeout-Ms".toList) with
  | none => simp
  | some ms =>
      by_cases hms : 0 < ms
      · simp [hms]
      · simp [hms]

/-- Less than a millisecond is not propagated. -/
theorem propagates_iff (cfg : ClientConfig κ μ) (conn : κ)
    (caller : Option (List (GoString × List GoString))) {remaining : Int}
    (hremaining : 0 < remaining) :
    Propagates cfg conn caller remaining ↔
      1000000 ≤ remaining ∨
        ∃ ms, parseInt64 ((callerHeader caller).get timeoutKey) = some ms ∧ 0 < ms ∧
          millisecondsToDuration ms ≤ remaining := by
  have huntil : 0 < timeUntil remaining ∧ timeUntil remaining ≤ 0x7FFFFFFFFFFFFFFF ∧
      timeUntil remaining ≤ remaining := by
    unfold timeUntil
    omega
  obtain ⟨hpositive, hmax, hle⟩ := huntil
  have hget := get_timeout (cfg.withDeadline remaining) conn caller
  have hms : (cfg.withDeadline remaining).timeoutMs =
      some (milliseconds (timeUntil remaining)) := rfl
  rw [hms] at hget
  simp only at hget
  have hdiv : milliseconds (timeUntil remaining) = timeUntil remaining / 1000000 :=
    Int.tdiv_eq_ediv_of_nonneg (by omega)
  rw [propagates_iff_timeout]
  by_cases hsome : 1000000 ≤ remaining
  · have hwhole : 0 < milliseconds (timeUntil remaining) := by
      rw [hdiv]
      unfold timeUntil
      omega
    rw [if_pos hwhole] at hget
    have hparse := @parseInt64_toDigits (milliseconds (timeUntil remaining)).toNat (by omega)
    rw [← hget, Int.toNat_of_nonneg (by omega)] at hparse
    refine ⟨fun _ => Or.inl hsome, fun _ => ⟨_, requestTimeout_eq_some_iff.mpr
      ⟨_, hparse, hwhole, rfl⟩, ?_⟩⟩
    have hback := millisecondsToDuration_milliseconds_le hpositive hmax
    omega
  · have hnone : ¬ 0 < milliseconds (timeUntil remaining) := by
      rw [hdiv]
      omega
    rw [if_neg hnone] at hget
    constructor
    · rintro ⟨timeout, htimeout, hbound⟩
      obtain ⟨ms, hparse, hms, rfl⟩ := requestTimeout_eq_some_iff.mp htimeout
      rw [hget] at hparse
      exact Or.inr ⟨ms, hparse, hms, hbound⟩
    · rintro (hle | ⟨ms, hparse, hms, hbound⟩)
      · exact absurd hle hsome
      · rw [← hget] at hparse
        exact ⟨_, requestTimeout_eq_some_iff.mpr ⟨ms, hparse, hms, rfl⟩, hbound⟩

-- ============================================================================
-- The server
-- ============================================================================

/-- The handler has a deadline that is `ms` milliseconds away, in the future. -/
def Exact (headers : Header) (ms : Int) : Prop :=
  requestTimeout headers = some (ms * 1000000) ∧ 0 < ms * 1000000

theorem exact_iff {headers : Header} {ms : Int}
    (hparse : parseInt64 (headers.get timeoutKey) = some ms) (hms : 0 < ms) :
    Exact headers ms ↔ ms ≤ 9223372036854 := by
  have htimeout : requestTimeout headers = some (millisecondsToDuration ms) :=
    requestTimeout_eq_some_iff.mpr ⟨ms, hparse, hms, rfl⟩
  rw [Exact, htimeout, Option.some.injEq, millisecondsToDuration_eq_iff hms]
  constructor
  · exact fun h => h.1
  · exact fun h => ⟨h, by omega⟩

/-- A deadline arrives unless less than a millisecond is left of it, and the
    milliseconds that arrive are kept if they fit a `Duration`. -/
theorem deadline_propagated_iff (cfg : ClientConfig κ μ) (conn : κ)
    (caller : Option (List (GoString × List GoString))) (remaining : Int)
    (hremaining : 0 < remaining) (headers : Header) (ms : Int)
    (hparse : parseInt64 (headers.get timeoutKey) = some ms) (hms : 0 < ms) :
    (Propagates cfg conn caller remaining ↔
      1000000 ≤ remaining ∨
        ∃ own, parseInt64 ((callerHeader caller).get timeoutKey) = some own ∧ 0 < own ∧
          millisecondsToDuration own ≤ remaining) ∧
      (Exact headers ms ↔ ms ≤ 9223372036854) :=
  ⟨propagates_iff cfg conn caller hremaining, exact_iff hparse hms⟩

/-- Headers with a timeout. -/
def timed (text : GoString) : Header := Header.set ∅ timeoutKey text

theorem get_timed (text : GoString) : (timed text).get timeoutKey = text := get_set_self _ _ _

theorem second_propagated :
    Propagates (bytesCall ClientStream.closedEarly) () none 1000000000 ∧ Exact (timed ['5']) 5 := by
  have hparse : parseInt64 ((timed ['5']).get timeoutKey) = some 5 := by
    rw [get_timed]
    decide
  obtain ⟨hclient, hserver⟩ := deadline_propagated_iff (bytesCall ClientStream.closedEarly)
    () none 1000000000
    (by decide) (timed ['5']) 5 hparse (by decide)
  exact ⟨hclient.mpr (Or.inl (by decide)), hserver.mpr (by decide)⟩

/-- Half a millisecond is no deadline, and `9223372036855` ms are in the past. -/
theorem extreme_deadlines_lost :
    ¬ Propagates (bytesCall ClientStream.closedEarly) () none 500000 ∧
      parseInt64 ((timed "9223372036855".toList).get timeoutKey) = some 9223372036855 ∧
      requestTimeout (timed "9223372036855".toList) = some (-9223372036854551616) := by
  refine ⟨?_, ?_, ?_⟩
  · rw [propagates_iff _ _ _ (by decide)]
    rintro (hle | ⟨ms, hparse, -⟩)
    · revert hle
      decide
    · have hempty : parseInt64 ((callerHeader none).get timeoutKey) = none := by decide
      rw [hempty] at hparse
      cases hparse
  · rw [get_timed]
    decide +kernel
  · apply requestTimeout_eq_some_iff.mpr
    refine ⟨9223372036855, ?_, by decide, by decide⟩
    rw [get_timed]
    decide +kernel

end BidiProtocol
end BidiWeb
