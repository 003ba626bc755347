/-
  BidiWeb.Lib.Reader

  A byte stream as `io.Reader` delivers it: in chunks of any size, then an
  error, which may come with the last chunk or after it.  `readFull` is
  `io.ReadFull`; what it returns depends on the content of the reader and not
  on its chunks (`readFull_of_le`, `readFull_of_lt`).

  The errors are of any type; `eof` is the one a reader ends with and
  `unexpectedEOF` what `readFull` makes of it halfway.
-/

namespace BidiWeb
namespace Lib

structure Reader (α ε : Type) where
  chunks : List (List α)
  /-- The error once there is nothing more to read. -/
  fin : ε
  /-- It is returned along with the last chunk. -/
  withLast : Bool := false

namespace Reader

variable {α ε : Type} (r : Reader α ε)

/-- What there is to read. -/
def content : List α := r.chunks.flatten

/-- `Read(p)` with room for `n`: at most one chunk at a time. -/
def read (n : Nat) : List α × Option ε × Reader α ε :=
  match r.chunks with
  | [] => ([], some r.fin, r)
  | c :: cs =>
      if n < c.length then (c.take n, none, { r with chunks := c.drop n :: cs })
      else
        let err := if r.withLast ∧ cs.length = 0 then some r.fin else none
        (c, err, { r with chunks := cs })

theorem read_content {n : Nat} {p : List α} {err : Option ε} {r' : Reader α ε}
    (h : r.read n = (p, err, r')) :
    r.content = p ++ r'.content ∧ p.length ≤ n ∧ r'.fin = r.fin := by
  unfold read at h
  unfold content
  split at h
  · rename_i hnil
    cases h
    rw [hnil]
    exact ⟨rfl, Nat.zero_le n, rfl⟩
  · rename_i c cs hcons
    rw [hcons]
    split at h
    · rename_i hlt
      cases h
      refine ⟨?_, ?_, rfl⟩
      · rw [List.flatten_cons, List.flatten_cons, ← List.append_assoc, List.take_append_drop]
      · rw [List.length_take]
        omega
    · rename_i hge
      cases h
      exact ⟨rfl, Nat.le_of_not_lt hge, rfl⟩

/-- An error is the final one, and nothing is left. -/
theorem read_error {n : Nat} {p : List α} {err : ε} {r' : Reader α ε}
    (h : r.read n = (p, some err, r')) : err = r.fin ∧ r'.content = [] := by
  unfold read at h
  split at h
  · rename_i hnil
    cases h
    exact ⟨rfl, by rw [content, hnil]; rfl⟩
  · rename_i c cs hcons
    split at h
    · cases h
    · split at h
      · rename_i hlast
        cases h
        have hcs : cs = [] := List.eq_nil_of_length_eq_zero hlast.2
        exact ⟨rfl, by rw [content, hcs]; rfl⟩
      · cases h

/-- A `Read` without error fills the room or leaves a chunk less. -/
theorem read_progress {n : Nat} {p : List α} {r' : Reader α ε} (hn : 0 < n)
    (h : r.read n = (p, none, r')) :
    r'.chunks.length + (n - p.length) < r.chunks.length + n := by
  unfold read at h
  split at h
  · cases h
  · rename_i c cs hcons
    rw [hcons, List.length_cons]
    split at h
    · rename_i hlt
      cases h
      simp only [List.length_cons, List.length_take]
      omega
    · simp only [Prod.mk.injEq] at h
      obtain ⟨rfl, -, rfl⟩ := h
      show cs.length + (n - c.length) < _
      omega

/-- `io.ReadAtLeast` for `n`: read until there are `n` or an error. -/
def readAtLeast (r : Reader α ε) (n : Nat) : List α × Option ε × Reader α ε :=
  if _hn : 0 < n then
    match _hread : r.read n with
    | (p, some err, r') => (p, some err, r')
    | (p, none, r') =>
        let (q, err, r'') := readAtLeast r' (n - p.length)
        (p ++ q, err, r'')
  else ([], none, r)
termination_by r.chunks.length + n
decreasing_by exact read_progress r _hn _hread

/-- `io.ReadFull` of `n`. -/
def readFull [DecidableEq ε] (eof unexpectedEOF : ε) (n : Nat) :
    List α × Option ε × Reader α ε :=
  let (p, err, r') := r.readAtLeast n
  if n ≤ p.length then (p, none, r')
  else if 0 < p.length ∧ err = some eof then (p, some unexpectedEOF, r')
  else (p, err, r')

-- ============================================================================
-- What is read depends on the content
-- ============================================================================

variable {r}

/-- The loop reads the first `n`; what follows stays. -/
theorem readAtLeast_of_le {n : Nat} (h : n ≤ r.content.length) :
    ∃ err r', r.readAtLeast n = (r.content.take n, err, r') ∧
      r'.content = r.content.drop n ∧ r'.fin = r.fin := by
  fun_induction readAtLeast r n with
  | case1 r n hn p err r' hread =>
      obtain ⟨hcontent, hlen, hfin⟩ := r.read_content hread
      obtain ⟨-, hnil⟩ := r.read_error hread
      rw [hnil, List.append_nil] at hcontent
      rw [hcontent] at h ⊢
      refine ⟨some err, r', ?_, ?_, hfin⟩
      · rw [List.take_of_length_le hlen]
      · rw [hnil, List.drop_eq_nil_of_le hlen]
  | case2 r n hn p r' hread q err r'' hloop ih =>
      obtain ⟨hcontent, hlen, hfin⟩ := r.read_content hread
      rw [hcontent, List.length_append] at h
      obtain ⟨err', r₂, heq, hrest, hfin'⟩ := ih (by omega)
      rw [hloop] at heq
      cases heq
      refine ⟨err, r'', ?_, ?_, hfin'.trans hfin⟩
      · rw [hcontent, List.take_append, List.take_of_length_le hlen]
      · rw [hrest, hcontent, List.drop_append, List.drop_eq_nil_of_le hlen, List.nil_append]
  | case3 r n hn =>
      obtain rfl : n = 0 := by omega
      exact ⟨none, r, rfl, rfl, rfl⟩

/-- Too little to read: the loop ends with the error of the reader. -/
theorem readAtLeast_of_lt {n : Nat} (h : r.content.length < n) :
    ∃ r', r.readAtLeast n = (r.content, some r.fin, r') ∧ r'.content = [] ∧ r'.fin = r.fin := by
  fun_induction readAtLeast r n with
  | case1 r n hn p err r' hread =>
      obtain ⟨hcontent, -, hfin⟩ := r.read_content hread
      obtain ⟨rfl, hnil⟩ := r.read_error hread
      rw [hnil, List.append_nil] at hcontent
      exact ⟨r', by rw [hcontent], hnil, hfin⟩
  | case2 r n hn p r' hread q err r'' hloop ih =>
      obtain ⟨hcontent, hlen, hfin⟩ := r.read_content hread
      rw [hcontent, List.length_append] at h
      obtain ⟨r₂, heq, hnil, hfin'⟩ := ih (by omega)
      rw [hloop] at heq
      cases heq
      exact ⟨r'', by rw [hcontent, hfin], hnil, hfin'.trans hfin⟩
  | case3 r n hn => omega

variable [DecidableEq ε] {eof unexpectedEOF : ε}

theorem readFull_of_le {n : Nat} (h : n ≤ r.content.length) :
    ∃ r', r.readFull eof unexpectedEOF n = (r.content.take n, none, r') ∧
      r'.content = r.content.drop n ∧ r'.fin = r.fin := by
  obtain ⟨err, r', hloop, hrest, hfin⟩ := readAtLeast_of_le h
  have hlen : n ≤ (r.content.take n).length := by
    rw [List.length_take]
    omega
  refine ⟨r', ?_, hrest, hfin⟩
  rw [readFull, hloop]
  exact if_pos hlen

/-- Short of `n`: the error is `eof` only when not a byte was read. -/
theorem readFull_of_lt {n : Nat} (h : r.content.length < n) :
    ∃ r', r.readFull eof unexpectedEOF n =
        (r.content, some (if 0 < r.content.length ∧ r.fin = eof then unexpectedEOF else r.fin),
          r') ∧
      r'.content = [] ∧ r'.fin = r.fin := by
  obtain ⟨r', hloop, hnil, hfin⟩ := readAtLeast_of_lt h
  have hlen : ¬ n ≤ r.content.length := Nat.not_le_of_lt h
  refine ⟨r', ?_, hnil, hfin⟩
  rw [readFull, hloop]
  simp only [if_neg hlen, Option.some.injEq]
  split
  · rfl
  · rfl

end Reader
end Lib
end BidiWeb
