import Domoio.Lib.CText

/-
  File:      Domoio/Lib/Chunked.lean
  Subject:   Contents in chunks, each behind its size in hexadecimal digits.

  In a format where no text begins another one, a stream of texts is read in one way
  (`TextFormat.texts_unique`). Chunked contents are such a format: the size says where a chunk ends, and
  a chunk of size 0 where the content does (`Chunked.unique`). So an empty chunk within a content ends it.
-/

namespace Lib

/-! ## 1. Texts one after the other -/

section Texts

variable {α β : Type} {R : List α → β → Prop} {w s : List α} {b : β} {bs cs : List β}

/-- What texts stand for. None is empty, and no text begins another one. -/
structure TextFormat (R : List α → β → Prop) : Prop where
  ne : ∀ b, ¬ R [] b
  unique : ∀ {w b w' b' s s'}, R w b → R w' b' → w ++ s = w' ++ s' → w = w' ∧ b = b'

/-- A stream of texts. -/
inductive Texts (R : List α → β → Prop) : List α → List β → Prop where
  | nil : Texts R [] []
  | cons {w s : List α} {b : β} {bs : List β} : R w b → Texts R s bs → Texts R (w ++ s) (b :: bs)

/-- A stream that begins with a text is read with it. -/
theorem TextFormat.texts_append (h : TextFormat R) (hw : R w b) :
    Texts R (w ++ s) cs ↔ ∃ bs, cs = b :: bs ∧ Texts R s bs := by
  refine ⟨fun htexts => ?_, fun ⟨bs, hcs, htexts⟩ => by rw [hcs]; exact .cons hw htexts⟩
  generalize hstream : w ++ s = stream at htexts
  cases htexts with
  | nil =>
      obtain ⟨rfl, -⟩ := List.append_eq_nil_iff.mp hstream
      exact absurd hw (h.ne b)
  | @cons w' s' b' bs hw' hrest =>
      obtain ⟨rfl, rfl⟩ := h.unique hw hw' hstream
      rw [← List.append_cancel_left hstream] at hrest
      exact ⟨bs, rfl, hrest⟩

/-- Nothing is read of an empty stream. -/
theorem TextFormat.texts_nil (h : TextFormat R) : Texts R [] cs ↔ cs = [] := by
  refine ⟨fun htexts => ?_, fun hcs => by rw [hcs]; exact .nil⟩
  generalize hstream : ([] : List α) = stream at htexts
  cases htexts with
  | nil => rfl
  | cons hw hrest =>
      obtain ⟨rfl, -⟩ := List.nil_eq_append_iff.mp hstream
      exact absurd hw (h.ne _)

/-- There is one way to read a stream. -/
theorem TextFormat.texts_unique (h : TextFormat R) (hbs : Texts R s bs) : Texts R s cs ↔ cs = bs := by
  refine ⟨fun hcs => ?_, fun heq => by rwa [heq]⟩
  induction hbs generalizing cs with
  | nil => exact h.texts_nil.mp hcs
  | cons hw hrest ih =>
      obtain ⟨bs', rfl, hrest'⟩ := (h.texts_append hw).mp hcs
      rw [ih hrest']

end Texts

/-! ## 2. Sizes -/

/-- A digit below 16, in upper case. -/
def hexUpper (n : Nat) : UInt8 := if n < 10 then UInt8.ofNat (48 + n) else UInt8.ofNat (55 + n)

/-- A number in hexadecimal digits. -/
def sizeText (n : Nat) : Bytes :=
  if n < 16 then [hexUpper n] else sizeText (n / 16) ++ [hexUpper (n % 16)]
termination_by n
decreasing_by omega

/-- The number that hexadecimal digits give. -/
def hexValue (size : Bytes) : Nat := size.foldl (fun v c => 16 * v + (digitValue 16 c).getD 0) 0

/-- The text of a size. -/
structure IsSize (size : Bytes) (n : Nat) : Prop where
  ne : size ≠ []
  digits : ∀ c ∈ size, (digitValue 16 c).isSome
  value : hexValue size = n

theorem digitValue_hexUpper : ∀ n < 16, digitValue 16 (hexUpper n) = some n := by
  decide +kernel

theorem isSize_sizeText (n : Nat) : IsSize (sizeText n) n := by
  fun_induction sizeText n with
  | case1 n hn =>
      refine ⟨List.cons_ne_nil _ _, fun c hc => ?_, ?_⟩
      · rw [List.mem_singleton.mp hc, digitValue_hexUpper n hn]
        rfl
      · rw [hexValue, List.foldl_cons, List.foldl_nil, digitValue_hexUpper n hn]
        exact Nat.zero_add n
  | case2 n hn ih =>
      have hdigit := digitValue_hexUpper (n % 16) (Nat.mod_lt n (by omega))
      refine ⟨List.append_ne_nil_of_right_ne_nil _ (List.cons_ne_nil _ _), fun c hc => ?_, ?_⟩
      · rcases List.mem_append.mp hc with hc | hc
        · exact ih.digits c hc
        · rw [List.mem_singleton.mp hc, hdigit]
          rfl
      · have hvalue := ih.value
        rw [hexValue] at hvalue
        rw [hexValue, List.foldl_append, List.foldl_cons, List.foldl_nil, hdigit, hvalue]
        exact Nat.div_add_mod n 16

theorem length_sizeText {n : Nat} (k : Nat) (h : n < 16 ^ (k + 1)) : (sizeText n).length ≤ k + 1 := by
  induction k generalizing n with
  | zero =>
      have hn : n < 16 := h
      rw [sizeText, if_pos hn]
      exact le_refl 1
  | succ k ih =>
      rw [sizeText]
      split
      · exact Nat.succ_le_succ (Nat.zero_le _)
      · rw [List.length_append, List.length_singleton]
        exact Nat.succ_le_succ (ih (Nat.div_lt_of_lt_mul (by rwa [← pow_succ'])))

/-! ## 3. Chunks -/

/-- The end of a line. -/
def lineEnd : Bytes := [13, 10]

/-- The text of a content in chunks, the last of size 0. -/
inductive Chunked : Bytes → Bytes → Prop where
  | last {size : Bytes} : IsSize size 0 → Chunked (size ++ (lineEnd ++ lineEnd)) []
  | chunk {size data coded content : Bytes} : IsSize size data.length → data ≠ [] →
      Chunked coded content →
      Chunked (size ++ (lineEnd ++ (data ++ (lineEnd ++ coded)))) (data ++ content)

/-- A chunk. -/
def chunkText (data : Bytes) : Bytes := sizeText data.length ++ (lineEnd ++ (data ++ lineEnd))

/-- The chunk of size 0 that ends a content. -/
def lastChunk : Bytes := sizeText 0 ++ (lineEnd ++ lineEnd)

theorem lastChunk_eq : lastChunk = [48, 13, 10, 13, 10] := by
  rw [lastChunk, sizeText]
  rfl

/-- An empty chunk is the end. -/
theorem chunkText_nil : chunkText [] = lastChunk := rfl

theorem chunked_lastChunk : Chunked lastChunk [] := .last (isSize_sizeText 0)

theorem chunked_chunkText {data coded content : Bytes} (hdata : data ≠ []) (h : Chunked coded content) :
    Chunked (chunkText data ++ coded) (data ++ content) := by
  have hchunk := Chunked.chunk (isSize_sizeText data.length) hdata h
  simpa only [chunkText, List.append_assoc] using hchunk

/-- A size ends with its line. -/
theorem IsSize.unique {size size' s s' : Bytes} {n n' : Nat} (h : IsSize size n) (h' : IsSize size' n')
    (heq : size ++ (lineEnd ++ s) = size' ++ (lineEnd ++ s')) : size = size' ∧ n = n' ∧ s = s' := by
  have htake : ∀ {size s : Bytes} {n : Nat}, IsSize size n →
      (size ++ (lineEnd ++ s)).takeWhile (fun c => (digitValue 16 c).isSome) = size := by
    intro size s n h
    rw [List.takeWhile_append_of_pos h.digits]
    exact (congrArg (size ++ ·) (List.takeWhile_cons_of_neg (by decide))).trans (List.append_nil _)
  have hsize : size = size' := by rw [← htake h, heq, htake h']
  subst hsize
  have hrest := List.append_cancel_left (List.append_cancel_left heq)
  exact ⟨rfl, h.value.symm.trans h'.value, hrest⟩

/-- There is one way to read the chunks that a stream begins with. -/
theorem Chunked.unique {w w' b b' s s' : Bytes} (h : Chunked w b) (h' : Chunked w' b')
    (heq : w ++ s = w' ++ s') : w = w' ∧ b = b' := by
  induction h generalizing w' b' with
  | last hsize =>
      cases h' with
      | last hsize' =>
          simp only [List.append_assoc] at heq
          obtain ⟨rfl, -, -⟩ := hsize.unique hsize' heq
          exact ⟨rfl, rfl⟩
      | chunk hsize' hdata =>
          simp only [List.append_assoc] at heq
          obtain ⟨-, hlength, -⟩ := hsize.unique hsize' heq
          exact absurd (List.length_eq_zero_iff.mp hlength.symm) hdata
  | @chunk size data coded content hsize hdata hcoded ih =>
      cases h' with
      | last hsize' =>
          simp only [List.append_assoc] at heq
          obtain ⟨-, hlength, -⟩ := hsize.unique hsize' heq
          exact absurd (List.length_eq_zero_iff.mp hlength) hdata
      | @chunk size' data' coded' content' hsize' hdata' hcoded' =>
          simp only [List.append_assoc] at heq
          obtain ⟨rfl, hlength, hrest⟩ := hsize.unique hsize' heq
          obtain ⟨rfl, hrest⟩ := List.append_inj hrest hlength
          obtain ⟨rfl, rfl⟩ := ih hcoded' (List.append_cancel_left (List.append_cancel_left hrest))
          exact ⟨rfl, rfl⟩

end Lib
