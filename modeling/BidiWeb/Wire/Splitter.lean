/-
  BidiWeb.Wire.Splitter

  The envelopes of a byte string, as a reader of a byte stream finds them:
  five bytes of head (flag, 4-byte big-endian payload length), then the
  payload.  `firstEnvelope` takes one complete envelope off the front,
  `completeEnvelopes` all of them; bytes that arrive later never change what
  is complete already (`firstEnvelope_append`), and every byte is part of a complete
  envelope or left over (`eq_encode_leftover`).  `wholeEnvelopes` succeeds on
  the bytes that are envelopes to the end (`wholeEnvelopes_iff`).
-/

import BidiWeb.Core.Wire

namespace BidiWeb

/-- The first envelope of `b` and the bytes after it, if it is complete. -/
def firstEnvelope (b : Bytes) : Option (Envelope × Bytes) :=
  match b with
  | flag :: l₀ :: l₁ :: l₂ :: l₃ :: rest =>
      let length := (Lib.getUint32 l₀ l₁ l₂ l₃).toNat
      if length ≤ rest.length then some (⟨flag, rest.take length⟩, rest.drop length) else none
  | _ => none

/-- `completeEnvelopes` with the number of envelopes to take at most. -/
def takeEnvelopes : Nat → Bytes → List Envelope
  | 0, _ => []
  | n + 1, b =>
      match firstEnvelope b with
      | some (e, rest) => e :: takeEnvelopes n rest
      | none => []

/-- Every complete envelope at the front of `b`, in order. -/
def completeEnvelopes (b : Bytes) : List Envelope := takeEnvelopes b.length b

theorem firstEnvelope_eq_some {b rest : Bytes} {e : Envelope} :
    firstEnvelope b = some (e, rest) ↔
      ∃ l₀ l₁ l₂ l₃, (Lib.getUint32 l₀ l₁ l₂ l₃).toNat = e.payload.length ∧
        b = e.flag :: l₀ :: l₁ :: l₂ :: l₃ :: (e.payload ++ rest) := by
  obtain ⟨flag, payload⟩ := e
  constructor
  · intro h
    unfold firstEnvelope at h
    split at h
    · rename_i f l₀ l₁ l₂ l₃ r
      simp only at h
      split at h
      · rename_i hle
        simp only [Option.some.injEq, Prod.mk.injEq, Envelope.mk.injEq] at h
        obtain ⟨⟨rfl, rfl⟩, rfl⟩ := h
        refine ⟨l₀, l₁, l₂, l₃, ?_, by simp⟩
        simp only [List.length_take]
        omega
      · cases h
    · cases h
  · rintro ⟨l₀, l₁, l₂, l₃, hlen, rfl⟩
    simp [firstEnvelope, hlen]

theorem firstEnvelope_append {b rest : Bytes} {e : Envelope}
    (h : firstEnvelope b = some (e, rest)) (more : Bytes) :
    firstEnvelope (b ++ more) = some (e, rest ++ more) := by
  obtain ⟨l₀, l₁, l₂, l₃, hlen, rfl⟩ := firstEnvelope_eq_some.mp h
  exact firstEnvelope_eq_some.mpr ⟨l₀, l₁, l₂, l₃, hlen, by simp⟩

theorem length_of_firstEnvelope {b rest : Bytes} {e : Envelope}
    (h : firstEnvelope b = some (e, rest)) : rest.length < b.length := by
  obtain ⟨l₀, l₁, l₂, l₃, -, rfl⟩ := firstEnvelope_eq_some.mp h
  simp only [List.length_cons, List.length_append]
  omega

theorem takeEnvelopes_of_none {b : Bytes} (h : firstEnvelope b = none) (n : Nat) :
    takeEnvelopes n b = [] := by
  cases n <;> simp [takeEnvelopes, h]

/-- A bound of at least the length of the bytes is no bound. -/
theorem takeEnvelopes_congr {n m : Nat} {b : Bytes} (hn : b.length ≤ n) (hm : b.length ≤ m) :
    takeEnvelopes n b = takeEnvelopes m b := by
  induction n generalizing m b with
  | zero =>
      have hb : b = [] := List.eq_nil_of_length_eq_zero (by omega)
      subst hb
      rw [takeEnvelopes_of_none rfl, takeEnvelopes_of_none rfl]
  | succ n ih =>
      cases hfirst : firstEnvelope b with
      | none => rw [takeEnvelopes_of_none hfirst, takeEnvelopes_of_none hfirst]
      | some p =>
          obtain ⟨e, rest⟩ := p
          have hlt := length_of_firstEnvelope hfirst
          obtain ⟨m, rfl⟩ : ∃ k, m = k + 1 := ⟨m - 1, by omega⟩
          have hrest : takeEnvelopes n rest = takeEnvelopes m rest :=
            ih (by omega) (by omega)
          simp only [takeEnvelopes, hfirst, hrest]

theorem completeEnvelopes_of_first {b rest : Bytes} {e : Envelope}
    (h : firstEnvelope b = some (e, rest)) :
    completeEnvelopes b = e :: completeEnvelopes rest := by
  have hlt := length_of_firstEnvelope h
  obtain ⟨n, hn⟩ : ∃ n, b.length = n + 1 := ⟨b.length - 1, by omega⟩
  have hrest : takeEnvelopes n rest = completeEnvelopes rest :=
    takeEnvelopes_congr (by omega) (by omega)
  rw [← hrest]
  simp only [completeEnvelopes, hn, takeEnvelopes, h]

theorem completeEnvelopes_of_none {b : Bytes} (h : firstEnvelope b = none) :
    completeEnvelopes b = [] :=
  takeEnvelopes_of_none h _

/-- The payload of a complete envelope is as long as its head can say. -/
theorem length_of_mem_takeEnvelopes {n : Nat} {b : Bytes} {e : Envelope}
    (h : e ∈ takeEnvelopes n b) : e.payload.length < 0x100000000 := by
  induction n generalizing b with
  | zero => cases h
  | succ n ih =>
      unfold takeEnvelopes at h
      split at h
      · rename_i first rest hfirst
        rcases List.mem_cons.mp h with rfl | hrest
        · obtain ⟨l₀, l₁, l₂, l₃, hlen, -⟩ := firstEnvelope_eq_some.mp hfirst
          have hbound := (Lib.getUint32 l₀ l₁ l₂ l₃).toNat_lt
          omega
        · exact ih hrest
      · cases h

/-- Taking the first envelope off commutes with bytes arriving behind it. -/
theorem completeEnvelopes_append {b rest : Bytes} {e : Envelope}
    (h : firstEnvelope b = some (e, rest)) (more : Bytes) :
    completeEnvelopes (b ++ more) = e :: completeEnvelopes (rest ++ more) :=
  completeEnvelopes_of_first (firstEnvelope_append h more)

-- ============================================================================
-- Bytes that are envelopes to the end
-- ============================================================================

/-- `wholeEnvelopes` with the number of envelopes to take at most. -/
def takeWhole : Nat → Bytes → Option (List Envelope)
  | _, [] => some []
  | 0, _ :: _ => none
  | n + 1, b :: bs =>
      match firstEnvelope (b :: bs) with
      | some (e, rest) => (takeWhole n rest).map (e :: ·)
      | none => none

/-- The envelopes of `b`, if nothing is left over. -/
def wholeEnvelopes (b : Bytes) : Option (List Envelope) := takeWhole b.length b

def encodeEnvelopes (es : List Envelope) : Bytes :=
  es.flatMap fun e => Core.encodeEnvelope e.flag e.payload

theorem firstEnvelope_iff_encode {b rest : Bytes} {e : Envelope} :
    firstEnvelope b = some (e, rest) ↔
      e.payload.length < 0x100000000 ∧ b = Core.encodeEnvelope e.flag e.payload ++ rest := by
  rw [firstEnvelope_eq_some]
  constructor
  · rintro ⟨l₀, l₁, l₂, l₃, hlen, rfl⟩
    have hbound := (Lib.getUint32 l₀ l₁ l₂ l₃).toNat_lt
    refine ⟨by omega, ?_⟩
    rw [Core.encodeEnvelope, ← hlen, UInt32.ofNat_toNat, Lib.putUint32_getUint32]
    rfl
  · rintro ⟨hlen, rfl⟩
    refine ⟨_, _, _, _, ?_, rfl⟩
    rw [Lib.getUint32_of_put rfl, UInt32.toNat_ofNat']
    exact Nat.mod_eq_of_lt hlen

theorem takeWhole_iff {n : Nat} {b : Bytes} {es : List Envelope} (hn : b.length ≤ n) :
    takeWhole n b = some es ↔
      b = encodeEnvelopes es ∧ ∀ e ∈ es, e.payload.length < 0x100000000 := by
  induction n generalizing b es with
  | zero =>
      have hb : b = [] := List.eq_nil_of_length_eq_zero (by omega)
      subst hb
      cases es with
      | nil => simp [takeWhole, encodeEnvelopes]
      | cons e es => simp [takeWhole, encodeEnvelopes, Core.encodeEnvelope]
  | succ n ih =>
      cases b with
      | nil =>
          cases es with
          | nil => simp [takeWhole, encodeEnvelopes]
          | cons e es => simp [takeWhole, encodeEnvelopes, Core.encodeEnvelope]
      | cons x bs =>
          constructor
          · intro h
            unfold takeWhole at h
            split at h
            · rename_i e rest hfirst
              obtain ⟨es, hrest, rfl⟩ := Option.map_eq_some_iff.mp h
              have hlt := length_of_firstEnvelope hfirst
              obtain ⟨hlen, hb⟩ := firstEnvelope_iff_encode.mp hfirst
              obtain ⟨rfl, hes⟩ := (ih (by omega)).mp hrest
              exact ⟨hb, List.forall_mem_cons.mpr ⟨hlen, hes⟩⟩
            · cases h
          · rintro ⟨hb, hes⟩
            cases es with
            | nil => cases hb
            | cons e es =>
                obtain ⟨hlen, hes⟩ := List.forall_mem_cons.mp hes
                have hfirst : firstEnvelope (x :: bs) = some (e, encodeEnvelopes es) :=
                  firstEnvelope_iff_encode.mpr ⟨hlen, hb⟩
                have hlt := length_of_firstEnvelope hfirst
                have hrest : takeWhole n (encodeEnvelopes es) = some es :=
                  (ih (by omega)).mpr ⟨rfl, hes⟩
                simp only [takeWhole, hfirst, hrest, Option.map_some]

/-- Splitting undoes encoding, and nothing else can be split. -/
theorem wholeEnvelopes_iff {b : Bytes} {es : List Envelope} :
    wholeEnvelopes b = some es ↔
      b = encodeEnvelopes es ∧ ∀ e ∈ es, e.payload.length < 0x100000000 :=
  takeWhole_iff (Nat.le_refl _)

theorem encodeEnvelopes_append (xs ys : List Envelope) :
    encodeEnvelopes (xs ++ ys) = encodeEnvelopes xs ++ encodeEnvelopes ys :=
  List.flatMap_append

/-- Of bytes that are envelopes to the end every envelope is complete. -/
theorem completeEnvelopes_of_whole {b : Bytes} {es : List Envelope}
    (h : wholeEnvelopes b = some es) : completeEnvelopes b = es := by
  obtain ⟨rfl, hlen⟩ := wholeEnvelopes_iff.mp h
  clear h
  induction es with
  | nil => rfl
  | cons e es ih =>
      obtain ⟨he, hes⟩ := List.forall_mem_cons.mp hlen
      have hfirst : firstEnvelope (encodeEnvelopes (e :: es)) = some (e, encodeEnvelopes es) :=
        firstEnvelope_iff_encode.mpr ⟨he, rfl⟩
      rw [completeEnvelopes_of_first hfirst, ih hes]

/-- The bytes behind the last complete envelope. -/
def leftover (b : Bytes) : Bytes := b.drop (encodeEnvelopes (completeEnvelopes b)).length

theorem leftover_of_first {b rest : Bytes} {e : Envelope}
    (h : firstEnvelope b = some (e, rest)) : leftover b = leftover rest := by
  have hb := (firstEnvelope_iff_encode.mp h).2
  unfold leftover
  rw [completeEnvelopes_of_first h, encodeEnvelopes, List.flatMap_cons, List.length_append,
    ← List.drop_drop]
  conv => lhs; arg 2; rw [hb, List.drop_left]
  rfl

theorem leftover_of_none {b : Bytes} (h : firstEnvelope b = none) : leftover b = b := by
  rw [leftover, completeEnvelopes_of_none h]
  rfl

/-- Every byte is part of a complete envelope or left over. -/
theorem eq_encode_leftover (b : Bytes) :
    b = encodeEnvelopes (completeEnvelopes b) ++ leftover b := by
  induction hn : b.length using Nat.strongRecOn generalizing b with
  | _ n ih =>
  cases hfirst : firstEnvelope b with
  | none =>
      rw [completeEnvelopes_of_none hfirst, leftover_of_none hfirst]
      rfl
  | some p =>
      obtain ⟨e, rest⟩ := p
      have hrest := ih rest.length (hn ▸ length_of_firstEnvelope hfirst) rest rfl
      have hb := (firstEnvelope_iff_encode.mp hfirst).2
      rw [completeEnvelopes_of_first hfirst, leftover_of_first hfirst, encodeEnvelopes,
        List.flatMap_cons, List.append_assoc, ← encodeEnvelopes, ← hrest]
      exact hb

end BidiWeb
