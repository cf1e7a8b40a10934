import Domoio.Lib.CText

/-
  File:      Domoio/Lib/Words.lean
  Subject:   Lines of words: joining words by spaces, and taking a line apart again.

  * `Joined` -- words with one or more spaces between two neighbours;
  * `tokens_joined` -- the tokenizer undoes the joining, however many spaces stand between words;
  * `trimRight_line` -- trimming takes off what follows the last word and nothing of the word.
-/

namespace Lib

/-- What the tokenizer can return: a word is not empty and has no space. -/
structure IsWord (word : Bytes) : Prop where
  nonempty : word ≠ []
  noSpace : ∀ c ∈ word, c ≠ 32

instance (word : Bytes) : Decidable (IsWord word) :=
  decidable_of_iff (word ≠ [] ∧ ∀ c ∈ word, c ≠ 32)
    ⟨fun h => ⟨h.1, h.2⟩, fun h => ⟨h.nonempty, h.noSpace⟩⟩

/-- The words, joined by one or more spaces. -/
inductive Joined : List Bytes → Bytes → Prop
  | single (word : Bytes) : Joined [word] word
  | cons (word : Bytes) (gap : Nat) {words : List Bytes} {s : Bytes} :
      Joined words s → Joined (word :: words) (word ++ (List.replicate (gap + 1) 32 ++ s))

/-! ## 1. The tokenizer -/

/-- Characters other than the space go to the word that is being read. -/
theorem tokensFrom_append (done word rest : Bytes) (h : ∀ c ∈ word, c ≠ 32) :
    tokensFrom done (word ++ rest) = tokensFrom (done ++ word) rest := by
  induction word generalizing done with
  | nil => rw [List.nil_append, List.append_nil]
  | cons c word ih =>
      have hc : c ≠ 32 := h c List.mem_cons_self
      have hword : ∀ d ∈ word, d ≠ 32 := fun d hd => h d (List.mem_cons_of_mem c hd)
      rw [List.cons_append, tokensFrom, if_neg hc, ih (done ++ [c]) hword, List.append_assoc]
      rfl

/-- Spaces before a word are skipped. -/
theorem tokens_spaces (n : Nat) (rest : Bytes) :
    tokens (List.replicate n 32 ++ rest) = tokens rest := by
  induction n with
  | zero => rfl
  | succ n ih =>
      rw [List.replicate_succ, List.cons_append, tokens, tokensFrom, if_pos rfl, if_pos rfl]
      exact ih

theorem tokens_word {word : Bytes} (h : IsWord word) : tokens word = [word] := by
  have hword := tokensFrom_append [] word [] h.noSpace
  rw [List.append_nil, List.nil_append] at hword
  rw [tokens, hword, tokensFrom, if_neg h.nonempty]

/-- The first space behind a word ends it. -/
theorem tokens_word_spaces {word : Bytes} (h : IsWord word) (gap : Nat) (rest : Bytes) :
    tokens (word ++ (List.replicate (gap + 1) 32 ++ rest)) = word :: tokens rest := by
  rw [tokens, tokensFrom_append [] word _ h.noSpace, List.nil_append, List.replicate_succ,
    List.cons_append, tokensFrom, if_pos rfl, if_neg h.nonempty]
  exact congrArg (word :: ·) (tokens_spaces gap rest)

/-- Taking a line apart undoes the joining. -/
theorem tokens_joined {words : List Bytes} {s : Bytes} (h : Joined words s)
    (hwords : ∀ word ∈ words, IsWord word) : tokens s = words := by
  induction h with
  | single word => exact tokens_word (hwords word List.mem_cons_self)
  | cons word gap _ ih =>
      rw [tokens_word_spaces (hwords word List.mem_cons_self) gap,
        ih fun v hv => hwords v (List.mem_cons_of_mem word hv)]

/-! ## 2. The end of a line -/

theorem Joined.ne_nil {words : List Bytes} {s : Bytes} (h : Joined words s)
    (hwords : ∀ word ∈ words, word ≠ []) : s ≠ [] := by
  cases h with
  | single => exact hwords s List.mem_cons_self
  | cons word gap _ =>
      have hword : word ≠ [] := hwords word List.mem_cons_self
      exact List.append_ne_nil_of_left_ne_nil hword _

/-- A line ends as its last word ends. -/
theorem Joined.getLast? {words : List Bytes} {s : Bytes} (h : Joined words s)
    (hwords : ∀ word ∈ words, word ≠ []) : s.getLast? = words.getLast?.bind List.getLast? := by
  induction h with
  | single word => rfl
  | @cons word gap words s hjoined ih =>
      have hrest : ∀ v ∈ words, v ≠ [] := fun v hv => hwords v (List.mem_cons_of_mem word hv)
      have hs : s ≠ [] := hjoined.ne_nil hrest
      have hne : words ≠ [] := by
        cases hjoined <;> exact List.cons_ne_nil _ _
      rw [List.getLast?_append_of_ne_nil _ (List.append_ne_nil_of_right_ne_nil _ hs),
        List.getLast?_append_of_ne_nil _ hs, ih hrest, ← List.singleton_append,
        List.getLast?_append_of_ne_nil _ hne]

theorem Joined.nulFree {words : List Bytes} {s : Bytes} (h : Joined words s)
    (hwords : ∀ word ∈ words, NulFree word) : NulFree s := by
  induction h with
  | single word => exact hwords word List.mem_cons_self
  | cons word gap _ ih =>
      intro c hc
      rcases List.mem_append.mp hc with hc | hc
      · exact hwords word List.mem_cons_self c hc
      rcases List.mem_append.mp hc with hc | hc
      · rw [List.eq_of_mem_replicate hc]
        decide
      · exact ih (fun v hv => hwords v (List.mem_cons_of_mem word hv)) c hc

/-- Trimming takes off the white space at the end. -/
theorem trimRight_append (b : Bytes) {trail : Bytes} (h : ∀ c ∈ trail, isSpace c = true) :
    trimRight (b ++ trail) = trimRight b := by
  have hreverse : ∀ c ∈ trail.reverse, isSpace c = true := fun c hc => h c (List.mem_reverse.mp hc)
  rw [trimRight, List.reverse_append, List.dropWhile_append_of_pos hreverse]
  rfl

/-- Trimming stops at the first character that is not white space. -/
theorem trimRight_of_getLast? {b : Bytes} (h : ∀ c ∈ b.getLast?, isSpace c = false) :
    trimRight b = b := by
  have hdrop : b.reverse.dropWhile isSpace = b.reverse := by
    cases hb : b.reverse with
    | nil => rfl
    | cons c cs =>
        have hc : isSpace c = false := by
          apply h
          rw [List.getLast?_eq_head?_reverse, hb]
          rfl
        rw [List.dropWhile_cons_of_neg (by rw [hc]; decide)]
  rw [trimRight, hdrop, List.reverse_reverse]

theorem trimRight_line {words : List Bytes} {s trail : Bytes} (h : Joined words s)
    (hwords : ∀ word ∈ words, word ≠ [])
    (hlast : ∀ word ∈ words.getLast?, ∀ c ∈ word.getLast?, isSpace c = false)
    (htrail : ∀ c ∈ trail, isSpace c = true) : trimRight (s ++ trail) = s := by
  rw [trimRight_append s htrail]
  apply trimRight_of_getLast?
  intro c hc
  rw [h.getLast? hwords] at hc
  obtain ⟨word, hword, hc⟩ := Option.bind_eq_some_iff.mp hc
  exact hlast word hword c hc

end Lib
