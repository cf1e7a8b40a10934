import Domoio.Lib.CText

/-
  File:      Domoio/Lib/Terminated.lean
  Subject:   Terminated strings on a byte stream.

  * NUL-terminated strings on a stream that is cut into chunks: a reader that takes each chunk for
    one C string sees the strings that were sent exactly when the stream was cut at the terminators
    (`map_cString_iff`);
  * lines: a reader that splits the stream behind every terminator sees whole streams one after the
    other (`lines_append`), and a string without terminators as one line (`lines_terminated`).
-/

namespace Lib

/-! ## 1. Chunks -/

theorem cString_length_le (c : Bytes) : (cString c).length ≤ c.countP (· != 0) := by
  induction c with
  | nil => simp [cString]
  | cons b c ih =>
      by_cases hb : b = 0
      · simp [cString, hb]
      · have hc : cString (b :: c) = b :: cString c := by simp [cString, hb]
        rw [hc, List.countP_cons_of_pos (by simpa using hb)]
        simpa using ih

theorem countP_nulFree {b : Bytes} (h : NulFree b) : b.countP (· != 0) = b.length := by
  rw [List.countP_eq_length]
  intro c hc
  simpa using h c hc

/-- A NUL-terminated string. -/
def terminated (s : Bytes) : Bytes := s ++ [0]

/-- Behind its C string a chunk is empty or goes on with the NUL. -/
theorem cString_split (c : Bytes) : c = cString c ∨ ∃ t, c = cString c ++ 0 :: t := by
  induction c with
  | nil => exact Or.inl rfl
  | cons b c ih =>
      by_cases hb : b = 0
      · subst hb
        exact Or.inr ⟨c, rfl⟩
      · have hc : cString (b :: c) = b :: cString c := by simp [cString, hb]
        rw [hc]
        rcases ih with h | ⟨t, h⟩
        · exact Or.inl (by rw [← h])
        · exact Or.inr ⟨t, by rw [List.cons_append, ← h]⟩

theorem length_flatten_cString_le (chunks : List Bytes) :
    (chunks.map cString).flatten.length ≤ chunks.flatten.countP (· != 0) := by
  induction chunks with
  | nil => simp
  | cons c chunks ih =>
      have := cString_length_le c
      simp only [List.map_cons, List.flatten_cons, List.length_append, List.countP_append]
      omega

theorem countP_terminated {ss : List Bytes} (h : ∀ s ∈ ss, NulFree s) :
    (ss.map terminated).flatten.countP (· != 0) = ss.flatten.length := by
  induction ss with
  | nil => rfl
  | cons s ss ih =>
      have hs := countP_nulFree (h s List.mem_cons_self)
      have ih' := ih fun t ht => h t (List.mem_cons_of_mem _ ht)
      simp only [List.map_cons, List.flatten_cons, List.countP_append, List.length_append,
        terminated, hs, ih']
      simp

/-- A stream of terminated non-empty strings does not begin with a NUL. -/
theorem terminated_head {ss : List Bytes} (h : ∀ s ∈ ss, NulFree s ∧ s ≠ []) {t : Bytes} :
    (ss.map terminated).flatten ≠ 0 :: t := by
  cases ss with
  | nil => simp
  | cons s ss =>
      obtain ⟨hfree, hne⟩ := h s List.mem_cons_self
      obtain ⟨b, s', rfl⟩ := List.exists_cons_of_ne_nil hne
      have hb := hfree b List.mem_cons_self
      intro heq
      simp only [List.map_cons, List.flatten_cons, terminated, List.cons_append, List.cons.injEq] at heq
      exact hb heq.1

/-- The chunks' C strings are the strings only if the chunks are the terminated strings. -/
theorem chunks_eq_terminated {chunks ss : List Bytes} (h : ∀ s ∈ ss, NulFree s ∧ s ≠ [])
    (hcat : chunks.flatten = (ss.map terminated).flatten) (hc : chunks.map cString = ss) :
    chunks = ss.map terminated := by
  induction ss generalizing chunks with
  | nil => simpa using hc
  | cons s ss ih =>
      obtain ⟨c, chunks', rfl, hcs, hcss⟩ := List.map_eq_cons_iff.mp hc
      have htail : ∀ s ∈ ss, NulFree s ∧ s ≠ [] := fun t ht => h t (List.mem_cons_of_mem _ ht)
      have hcat' : c ++ chunks'.flatten = s ++ 0 :: (ss.map terminated).flatten := by
        simpa [terminated] using hcat
      rcases cString_split c with hsplit | ⟨t, hsplit⟩
      · -- the NUL would begin the next chunk
        rw [hsplit, hcs] at hcat'
        have hnul : chunks'.flatten = 0 :: (ss.map terminated).flatten := List.append_cancel_left hcat'
        cases chunks' with
        | nil => cases hnul
        | cons c' chunks'' =>
            have hne : cString c' ≠ [] := (htail _ (hcss ▸ List.mem_cons_self)).2
            cases c' with
            | nil => exact absurd rfl hne
            | cons b c' =>
                simp only [List.flatten_cons, List.cons_append, List.cons.injEq] at hnul
                obtain ⟨rfl, -⟩ := hnul
                exact absurd rfl hne
      · rw [hsplit, hcs, List.append_assoc, List.cons_append] at hcat'
        have hrest : t ++ chunks'.flatten = (ss.map terminated).flatten := by
          simpa using List.append_cancel_left hcat'
        -- the other chunks hold all characters of the other strings, so `t` holds none
        have hcount : t.countP (· != 0) = 0 := by
          have h1 := congrArg (List.countP (· != 0)) hrest
          rw [List.countP_append, countP_terminated fun s hs => (htail s hs).1] at h1
          have h2 := length_flatten_cString_le chunks'
          rw [hcss] at h2
          omega
        have ht : t = [] := by
          cases t with
          | nil => rfl
          | cons b t =>
              have hb : b = 0 := by
                by_contra hb
                rw [List.countP_cons_of_pos (by simpa using hb)] at hcount
                omega
              subst hb
              exact absurd hrest.symm (terminated_head htail)
        subst ht
        rw [ih htail (by simpa using hrest) hcss, hsplit, hcs]
        rfl

theorem map_cString_terminated {ss : List Bytes} (h : ∀ s ∈ ss, NulFree s) :
    (ss.map terminated).map cString = ss := by
  induction ss with
  | nil => rfl
  | cons s ss ih =>
      have hs := cString_append_nul (h s List.mem_cons_self) []
      have ih' := ih fun t ht => h t (List.mem_cons_of_mem _ ht)
      simp only [List.map_cons, terminated, hs]
      rw [ih']

/-- Non-empty strings are sent with their terminators on a stream that is cut into chunks. -/
theorem map_cString_iff {chunks ss : List Bytes} (h : ∀ s ∈ ss, NulFree s ∧ s ≠ [])
    (hcat : chunks.flatten = (ss.map terminated).flatten) :
    chunks.map cString = ss ↔ chunks = ss.map terminated := by
  constructor
  · exact chunks_eq_terminated h hcat
  · intro heq
    subst heq
    exact map_cString_terminated fun s hs => (h s hs).1

/-! ## 2. Lines -/

section Lines

variable {α : Type*} [DecidableEq α]

/-- The complete lines of a stream, each with its terminator; `line` is what was read of the
    first one before. -/
def linesFrom (sep : α) : List α → List α → List (List α)
  | _, [] => []
  | line, c :: cs =>
      if c = sep then (line ++ [c]) :: linesFrom sep [] cs else linesFrom sep (line ++ [c]) cs

def lines (sep : α) (stream : List α) : List (List α) := linesFrom sep [] stream

variable {sep : α}

theorem linesFrom_terminated {l : List α} (h : sep ∉ l) (line stream : List α) :
    linesFrom sep line (l ++ sep :: stream) = (line ++ l ++ [sep]) :: linesFrom sep [] stream := by
  induction l generalizing line with
  | nil => simp [linesFrom]
  | cons c l ih =>
      have hc : c ≠ sep := by
        intro heq
        subst heq
        exact h List.mem_cons_self
      have hl : sep ∉ l := fun hl => h (List.mem_cons_of_mem _ hl)
      rw [List.cons_append, linesFrom, if_neg hc, ih hl]
      simp

/-- A string without terminators is one line. -/
theorem lines_terminated {l : List α} (h : sep ∉ l) (stream : List α) :
    lines sep (l ++ sep :: stream) = (l ++ [sep]) :: lines sep stream := by
  simpa [lines] using linesFrom_terminated h [] stream

theorem linesFrom_append (line l stream : List α) :
    linesFrom sep line (l ++ sep :: stream) =
      linesFrom sep line (l ++ [sep]) ++ linesFrom sep [] stream := by
  induction l generalizing line with
  | nil => simp [linesFrom]
  | cons c l ih =>
      simp only [List.cons_append, linesFrom]
      split
      · rw [ih, List.cons_append]
      · exact ih _

/-- Behind a stream that ends with its terminator a new line begins. -/
theorem lines_append {l : List α} (h : l = [] ∨ ∃ l', l = l' ++ [sep]) (stream : List α) :
    lines sep (l ++ stream) = lines sep l ++ lines sep stream := by
  rcases h with rfl | ⟨l', rfl⟩
  · rfl
  · rw [List.append_assoc]
    exact linesFrom_append [] l' stream

end Lines

end Lib
