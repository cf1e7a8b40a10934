import Domoio.Reader

/-
  File:      Domoio/Scanning.lean
  Subject:   What the scanner of the JSON reader takes for tokens.

  The scanner meets a grammar of its own: escapes behind a backslash, numbers up to the first character
  that is none of theirs, white space between any two tokens (`scan_exact`). A text it rejects is rejected
  at a place in the text.
-/

namespace Domoio.Reader

open Lib Lib.Reading

/-! ## 1. Places and strings -/

/-- The location behind a text. -/
def locationOf (p : Bytes) : Location := p.foldl Location.next {}

/-- The stream stands in the text. -/
def StreamOf (text : Bytes) (s : InputStream) : Prop :=
  ∃ p, text = p ++ s.rest ∧ s.behind = locationOf p

/-- An exception of the scanner names a place in the text, or the one behind the EOF that was taken for
    a character of it. -/
def ScanFault (text : Bytes) (e : ReadException) : Prop :=
  ∃ m p, e = .scan m (locationOf p) ∧ (p <+: text ∨ p = text ++ [255])

section Scanner

variable {text : Bytes} {I : InputStream → Prop}

theorem kept_streamOf (text : Bytes) : Kept Location.next (StreamOf text) := by
  rintro s w t ⟨p, htext, hbehind⟩ hw
  refine ⟨p ++ w, ?_, ?_⟩
  · rw [htext, hw.rest, List.append_assoc]
  · rw [hw.behind, hbehind, locationOf, locationOf, List.foldl_append]

theorem StreamOf.step {s t : InputStream} {a : UInt8} (hs : StreamOf text s)
    (ht : s.Reads Location.next [a] t) : StreamOf text t :=
  kept_streamOf text hs ht

/-- A failure where the stream stands. -/
theorem StreamOf.fault {s : InputStream} (hs : StreamOf text s) (m : Bytes) :
    ScanFault text (.scan m s.behind) := by
  obtain ⟨p, htext, hbehind⟩ := hs
  exact ⟨m, p, by rw [hbehind], .inl (htext ▸ List.prefix_append p s.rest)⟩

/-- A failure behind the EOF. -/
theorem StreamOf.fault_eof {s : InputStream} (hs : StreamOf text s) (hend : s.rest = []) (m : Bytes) :
    ScanFault text (.scan m (s.behind.next 255)) := by
  obtain ⟨p, htext, hbehind⟩ := hs
  rw [hend, List.append_nil] at htext
  subst htext
  exact ⟨m, text ++ [255], by rw [hbehind, locationOf, locationOf, List.foldl_append]; rfl, .inr rfl⟩

theorem meets_fail {β : Type} (m : Bytes) :
    Meets Location.next (StreamOf text) (ScanFault text) (Scan.fail m : Scan β)
      fun _ _ _ _ => False where
  reads s _ b t := by
    constructor
    · rintro ⟨⟩
    · rintro ⟨w, -, h⟩
      exact h.elim
  fails s hs e he := by
    cases he
    exact hs.fault m

theorem meets_matchRest (expected es : Bytes) :
    Meets Location.next (StreamOf text) (ScanFault text) (matchRest expected es)
      fun _ _ w _ => w = es := by
  induction es with
  | nil => exact (meets_pure ()).congr fun _ _ w _ => by simp
  | cons e es ih =>
      refine (Meets.look_bind (R := fun eos _ _ w _ => eos = false ∧ w = e :: es) ?_).congr ?_
      · rintro (_ | _)
        · refine (Meets.get_bind (J := StreamOf text)
            (R := fun a _ _ w _ => a = e ∧ w = es) ?_ ?_ ?_).congr ?_
          · intro a
            by_cases ha : a = e
            · simpa [ha] using ih
            · have hfail : Meets Location.next (StreamOf text) (ScanFault text)
                  (Scan.fail (ascii "Expected string: " ++ expected) : Scan Unit)
                  fun _ _ _ _ => False := meets_fail _
              simpa [ha] using hfail
          · exact fun s a t hs ht => hs.1.step ht
          · rintro s ⟨-, hs⟩ hend
            simp [hend] at hs
          · intro k _ w rest
            constructor
            · rintro ⟨a, v, rfl, rfl, rfl⟩
              exact ⟨rfl, rfl⟩
            · rintro ⟨-, rfl⟩
              exact ⟨e, es, rfl, rfl, rfl⟩
        · exact ((meets_fail _).weaken fun s hs => hs.1).congr fun _ _ _ _ => by simp
      · rintro k _ w rest
        constructor
        · rintro ⟨-, rfl⟩
          rfl
        · rintro rfl
          exact ⟨rfl, rfl⟩

theorem meets_matchExpectedString (expected : Bytes) :
    Meets Location.next (StreamOf text) (ScanFault text) (matchExpectedString expected)
      fun _ b w _ => b = expected ∧ w = expected := by
  refine (Meets.bind (kept_streamOf text) (meets_matchRest expected expected)
    fun _ => meets_pure expected).congr fun k b w rest => ?_
  constructor
  · rintro ⟨_, u, v, rfl, rfl, rfl, rfl⟩
    exact ⟨rfl, List.append_nil _⟩
  · rintro ⟨rfl, rfl⟩
    exact ⟨(), w, [], (List.append_nil w).symm, rfl, rfl, rfl⟩

theorem meets_discard_matchExpectedString (expected : Bytes) :
    Meets Location.next (StreamOf text) (ScanFault text) (discard (matchExpectedString expected))
      fun _ _ w _ => w = expected :=
  ((meets_matchExpectedString expected).map fun _ => ()).congr fun k b w rest => by simp

/-- The number that hexadecimal digits give behind `x`. -/
def hexFold (x : Nat) : Bytes → Option Nat
  | [] => some x
  | c :: cs => (hexValue c).bind fun d => hexFold (x * 16 + d) cs

theorem meets_hexDigits (n x : Nat) :
    Meets Location.next (StreamOf text) (ScanFault text) (hexDigits n x)
      fun _ y w _ => w.length = n ∧ hexFold x w = some y := by
  induction n generalizing x with
  | zero =>
      refine (meets_pure x).congr fun k y w rest => ?_
      rw [List.length_eq_zero_iff]
      constructor
      · rintro ⟨rfl, rfl⟩
        exact ⟨rfl, rfl⟩
      · rintro ⟨rfl, h⟩
        exact ⟨(Option.some.inj h).symm, rfl⟩
  | succ n ih =>
      refine (Meets.get_bind (J := StreamOf text)
        (R := fun c _ y w _ => w.length = n ∧ (hexValue c).bind (fun d => hexFold (x * 16 + d) w) = some y)
        ?_ (fun s a t hs ht => hs.step ht) ?_).congr ?_
      · intro c
        cases hexValue c with
        | none => exact (meets_fail _).congr fun _ _ _ _ => by simp
        | some d => exact ih (x * 16 + d)
      · -- the EOF is no hexadecimal digit
        rintro s hs hend
        exact ⟨_, rfl, hs.fault_eof hend _⟩
      · rintro k y w rest
        constructor
        · rintro ⟨c, v, rfl, hlen, hfold⟩
          exact ⟨congrArg (· + 1) hlen, hfold⟩
        · rintro ⟨hlen, hfold⟩
          obtain ⟨c, v, rfl⟩ := List.exists_cons_of_length_eq_add_one hlen
          exact ⟨c, v, rfl, Nat.succ.inj hlen, hfold⟩

/-- How a character of a string is written: as itself, by an escape, or by the digits of its number. -/
inductive CharSpelling : Bytes → Bytes → Prop
  | plain {c : UInt8} : c ≠ 34 → c ≠ 92 → CharSpelling [c] [c]
  | escape {c b : UInt8} : unescape c = some b → CharSpelling [b] [92, c]
  | unicode {digits : Bytes} {x : Nat} : digits.length = 4 → hexFold 0 digits = some x →
      CharSpelling (utf8 x) (92 :: 117 :: digits)

/-- The characters of a string between the quotation marks. -/
inductive CharsSpelling : Bytes → Bytes → Prop
  | nil : CharsSpelling [] []
  | cons {v w v' w' : Bytes} : CharSpelling v w → CharsSpelling v' w' →
      CharsSpelling (v ++ v') (w ++ w')

/-- What is read behind a backslash. -/
def EscapeReads (v w : Bytes) : Prop :=
  ∃ c u, w = c :: u ∧
    ((∃ b, unescape c = some b ∧ v = [b] ∧ u = []) ∨
      unescape c = none ∧ c = 117 ∧ u.length = 4 ∧ ∃ x, hexFold 0 u = some x ∧ v = utf8 x)

theorem meets_matchEscape (string : Bytes) :
    Meets Location.next (fun s => StreamOf text s ∧ s.rest ≠ []) (ScanFault text)
      (matchEscape string) fun _ string' w _ => ∃ v, string' = string ++ v ∧ EscapeReads v w := by
  refine (Meets.get_bind (J := StreamOf text) (R := fun c _ string' u _ => ∃ v, string' = string ++ v ∧
    ((∃ b, unescape c = some b ∧ v = [b] ∧ u = []) ∨
      unescape c = none ∧ c = 117 ∧ u.length = 4 ∧ ∃ x, hexFold 0 u = some x ∧ v = utf8 x))
    ?_ (fun s a t hs ht => hs.1.step ht) (fun s hs hend => absurd hend hs.2)).congr ?_
  · intro c
    cases hc : unescape c with
    | some b => exact (meets_pure _).congr fun k y w rest => by simp
    | none =>
        by_cases h : c = 117
        · simp only [if_pos h]
          refine (Meets.bind (kept_streamOf text) (meets_hexDigits 4 0)
            fun x => meets_pure _).congr fun k y w rest => ?_
          constructor
          · rintro ⟨x, u, v, rfl, ⟨hlen, hx⟩, rfl, rfl⟩
            exact ⟨utf8 x, rfl, .inr ⟨trivial, h, by simpa using hlen, x, by simpa using hx, rfl⟩⟩
          · rintro ⟨v, rfl, ⟨b, hb, -⟩ | ⟨-, -, hlen, x, hx, rfl⟩⟩
            · cases hb
            · exact ⟨x, w, [], by simp, ⟨hlen, hx⟩, rfl, rfl⟩
        · simp only [if_neg h]
          exact (meets_fail _).congr fun k y w rest => by simp [h]
  · intro k y w rest
    constructor
    · rintro ⟨c, u, rfl, v, rfl, h⟩
      exact ⟨v, rfl, c, u, rfl, h⟩
    · rintro ⟨v, rfl, c, u, rfl, h⟩
      exact ⟨c, u, rfl, v, rfl, h⟩

/-- What one pass of the loop takes: a character, an escape, or a backslash the text ends with. -/
def PassReads (string : Bytes) : Grammar Location UInt8 Bytes := fun _ string' w rest =>
  ∃ v, string' = string ++ v ∧
    ((∃ c, v = [c] ∧ w = [c] ∧ (c = 92 → rest = [])) ∨ ∃ u, w = 92 :: u ∧ EscapeReads v u)

theorem meets_matchChar (string : Bytes) :
    Meets Location.next (fun s => StreamOf text s ∧ s.rest.head?.any (· ≠ 34) = true)
      (ScanFault text) (matchChar string) (PassReads string) := by
  refine (Meets.get_bind (J := StreamOf text) (R := fun c _ string' u rest => ∃ v, string' = string ++ v ∧
    if c = 92 ∧ (u ++ rest).isEmpty = false then EscapeReads v u else v = [c] ∧ u = [])
    ?_ (fun s a t hs ht => hs.1.step ht) ?_).congr ?_
  · intro c
    refine (Meets.look_bind (R := fun eos _ string' u _ => ∃ v, string' = string ++ v ∧
      if c = 92 ∧ eos = false then EscapeReads v u else v = [c] ∧ u = []) ?_).congr fun _ _ _ _ => Iff.rfl
    intro eos
    refine (Meets.ite (fun h => (meets_matchEscape string).weaken ?_)
      fun h => meets_pure _).congr ?_
    · rintro s ⟨hs, heos⟩
      exact ⟨hs, by simpa [h.2] using heos⟩
    · intro k string' u rest
      by_cases h : c = 92 ∧ eos = false
      · simp [h]
      · simp [h]
  · rintro s ⟨-, hs⟩ hend
    simp [hend] at hs
  · intro k string' w rest
    constructor
    · rintro ⟨c, u, rfl, v, rfl, h⟩
      refine ⟨v, rfl, ?_⟩
      split at h
      · exact .inr ⟨u, by simp_all, h⟩
      · rename_i hc
        obtain ⟨rfl, rfl⟩ := h
        exact .inl ⟨c, rfl, rfl, by simpa using hc⟩
    · rintro ⟨v, rfl, ⟨c, rfl, rfl, hc⟩ | ⟨u, rfl, h⟩⟩
      · refine ⟨c, [], rfl, _, rfl, ?_⟩
        rw [if_neg (by simpa using hc)]
        exact ⟨rfl, rfl⟩
      · refine ⟨92, u, rfl, v, rfl, ?_⟩
        obtain ⟨c, u', rfl, h'⟩ := id h
        rw [if_pos ⟨rfl, rfl⟩]
        exact h

theorem EscapeReads.spelling {v u : Bytes} (h : EscapeReads v u) : CharSpelling v (92 :: u) := by
  obtain ⟨c, u, rfl, ⟨b, hb, rfl, rfl⟩ | ⟨-, rfl, hlen, x, hx, rfl⟩⟩ := h
  · exact .escape hb
  · exact .unicode hlen hx

/-- In front of a quotation mark a pass takes one character as it is spelled. -/
theorem passReads_iff {string string' w rest : Bytes} {k : Location}
    (hquote : ∀ c ∈ (w ++ rest).head?, c ≠ 34) (hrest : rest ≠ []) :
    PassReads string k string' w rest ↔ ∃ v, string' = string ++ v ∧ CharSpelling v w := by
  refine exists_congr fun v => and_congr_right fun _ => ?_
  constructor
  · rintro (⟨c, rfl, rfl, hc⟩ | ⟨u, rfl, hu⟩)
    · exact .plain (hquote c rfl) fun h => hrest (hc h)
    · exact hu.spelling
  · rintro (⟨-, hc⟩ | @⟨c, b, hb⟩ | @⟨digits, x, hlen, hx⟩)
    · exact .inl ⟨_, rfl, rfl, fun h => absurd h hc⟩
    · exact .inr ⟨[c], rfl, c, [], rfl, .inl ⟨b, hb, rfl, rfl⟩⟩
    · exact .inr ⟨117 :: digits, rfl, 117, digits, rfl, .inr ⟨rfl, rfl, hlen, x, hx, rfl⟩⟩

theorem CharSpelling.head_ne {v w : Bytes} (h : CharSpelling v w) (rest : Bytes) :
    ∀ c ∈ (w ++ rest).head?, c ≠ 34 := by
  cases h with
  | plain hc _ => rintro c ⟨⟩; exact hc
  | escape _ => rintro c ⟨⟩; decide
  | unicode _ _ => rintro c ⟨⟩; decide

/-- The loop of `MatchString` in front of the closing quotation mark. -/
theorem turns_chars {string string' w rest : Bytes} {k : Location} :
    Turns Location.next (fun _ rest => rest.head?.any (· ≠ 34)) PassReads string k string' w
        (34 :: rest) ↔
      ∃ v, string' = string ++ v ∧ CharsSpelling v w := by
  constructor
  · intro h
    generalize hend : 34 :: rest = tail at h
    induction h with
    | done _ => exact ⟨[], (List.append_nil _).symm, .nil⟩
    | @turn b c d k u v tail hcond hpass hturns ih =>
        subst hend
        rw [List.append_assoc] at hcond
        obtain ⟨x, rfl, hx⟩ := (passReads_iff (by simpa using hcond) (by simp)).mp hpass
        obtain ⟨y, rfl, hy⟩ := ih rfl
        exact ⟨x ++ y, List.append_assoc .., .cons hx hy⟩
  · rintro ⟨v, rfl, h⟩
    induction h generalizing string k with
    | nil =>
        rw [List.append_nil]
        exact .done rfl
    | @cons v w v' w' hv _ ih =>
        have hne := hv.head_ne (w' ++ 34 :: rest)
        rw [← List.append_assoc string]
        refine .turn ?_ ((passReads_iff hne (by simp)).mpr ⟨v, rfl, hv⟩) ih
        rw [List.append_assoc]
        cases hv <;> simp_all

theorem PassReads.progress {string string' w rest : Bytes} {k : Location}
    (h : PassReads string k string' w rest) : w ≠ [] := by
  obtain ⟨v, -, ⟨c, -, rfl, -⟩ | ⟨u, rfl, -⟩⟩ := h
  · exact List.cons_ne_nil c []
  · exact List.cons_ne_nil 92 u

/-- The stream stands in the text, and the fuel goes beyond its end. -/
def Fueled (text : Bytes) (fuel : Nat) (s : InputStream) : Prop :=
  StreamOf text s ∧ s.rest.length < fuel

theorem kept_fueled (text : Bytes) (fuel : Nat) : Kept Location.next (Fueled text fuel) := by
  rintro s w t ⟨hs, hfuel⟩ hw
  have hlength := hw.length
  exact ⟨kept_streamOf text hs hw, by omega⟩

theorem meets_matchString (fuel : Nat) :
    Meets Location.next (Fueled text fuel) (ScanFault text) (matchString fuel)
      fun _ v w _ => ∃ u, w = 34 :: u ++ [34] ∧ CharsSpelling v u := by
  have hquote : Meets Location.next (Fueled text fuel) (ScanFault text)
      (discard (matchExpectedString [34])) fun _ _ w _ => w = [34] :=
    (meets_discard_matchExpectedString [34]).weaken fun s hs => hs.1
  have hloop : Meets Location.next (Fueled text fuel) (ScanFault text)
      (whileLoop .outOfFuel (fun _ rest => rest.head?.any (· ≠ 34)) matchChar fuel [])
      (Turns Location.next (fun _ rest => rest.head?.any (· ≠ 34)) PassReads []) :=
    Meets.whileLoop (kept_streamOf text) meets_matchChar PassReads.progress fuel []
  refine (Meets.bind (kept_fueled text fuel) hquote fun _ =>
    Meets.bind (kept_fueled text fuel) hloop fun string =>
      Meets.bind (kept_fueled text fuel) hquote fun _ => meets_pure string).congr fun k v w rest => ?_
  constructor
  · rintro ⟨_, _, _, rfl, rfl, string, u, _, rfl, hu, _, _, _, rfl, rfl, rfl, rfl⟩
    obtain ⟨v', hv, hchars⟩ := turns_chars.mp hu
    exact ⟨u, by simp, by simpa [hv] using hchars⟩
  · rintro ⟨u, rfl, hu⟩
    exact ⟨(), [34], u ++ [34], rfl, rfl, v, u, [34], rfl, turns_chars.mpr ⟨v, rfl, hu⟩,
      (), [34], [], rfl, rfl, rfl, rfl⟩

/-! ## 2. Tokens -/

theorem forall_byte {P : UInt8 → Prop} (h : ∀ n < 256, P (UInt8.ofNat n)) (c : UInt8) : P c := by
  have := h c.toNat (UInt8.toNat_lt c)
  rwa [UInt8.ofNat_toNat] at this

theorem literal_head {c : UInt8} {type : TokenType} {word : Bytes}
    (h : literal c = some (type, word)) : ∃ u, word = c :: u := by
  have hhead : word.head? = some c := by
    unfold literal at h
    repeat' split at h
    all_goals first | (cases h; subst_vars; decide) | cases h
  exact List.head?_eq_some_iff.mp hhead

theorem literal_digit {c : UInt8} (h : c = 45 ∨ 48 ≤ c ∧ c ≤ 57) : literal c = none := by
  unfold literal
  split_ifs
  all_goals first | rfl | (subst_vars; exact absurd h (by decide))

/-- How a token is written: type and value, the word, and what follows it. -/
inductive TokenSpelling : TokenType → Bytes → Bytes → Bytes → Prop
  | word {c : UInt8} {type : TokenType} {w rest : Bytes} : literal c = some (type, w) →
      TokenSpelling type w w rest
  | quoted {v u rest : Bytes} : CharsSpelling v u → TokenSpelling .string v (34 :: u ++ [34]) rest
  | numeral {c : UInt8} {u rest : Bytes} : c = 45 ∨ 48 ≤ c ∧ c ≤ 57 → (∀ d ∈ u, isNumeric d = true) →
      StopsAt isNumeric rest → TokenSpelling .number (c :: u) (c :: u) rest

theorem meets_matchNumber : Meets Location.next I (ScanFault text) matchNumber
    fun _ b w rest => b = w ∧ (∀ d ∈ w, isNumeric d = true) ∧ StopsAt isNumeric rest :=
  meets_readWhile isNumeric

theorem isNumeric_digit {c : UInt8} (h : c = 45 ∨ 48 ≤ c ∧ c ≤ 57) : isNumeric c = true := by
  have hbytes : ∀ c : UInt8, (c = 45 ∨ 48 ≤ c ∧ c ≤ 57) → isNumeric c = true :=
    forall_byte (by decide +kernel)
  exact hbytes c h

theorem TokenSpelling.of_literal {type type' : TokenType} {v w word rest : Bytes} {c : UInt8}
    (h : TokenSpelling type v w rest) (hhead : (w ++ rest).head? = some c)
    (hc : literal c = some (type', word)) : type = type' ∧ v = word ∧ w = word := by
  cases h with
  | @word d _ _ _ hd =>
      obtain ⟨u, rfl⟩ := literal_head hd
      cases hhead
      cases hd.symm.trans hc
      exact ⟨rfl, rfl, rfl⟩
  | quoted _ =>
      cases hhead
      cases hc
  | numeral hd _ _ =>
      cases hhead
      cases (literal_digit hd).symm.trans hc

theorem TokenSpelling.of_not_literal {type : TokenType} {v w rest : Bytes} {c : UInt8}
    (h : TokenSpelling type v w rest) (hhead : (w ++ rest).head? = some c) (hc : literal c = none) :
    (c = 34 ∧ type = .string ∧ ∃ u, w = 34 :: u ++ [34] ∧ CharsSpelling v u) ∨
      c ≠ 34 ∧ (c = 45 ∨ 48 ≤ c ∧ c ≤ 57) ∧ type = .number ∧ v = w ∧
        (∀ d ∈ w, isNumeric d = true) ∧ StopsAt isNumeric rest := by
  cases h with
  | @word d _ _ _ hd =>
      obtain ⟨u, rfl⟩ := literal_head hd
      cases hhead
      cases hc.symm.trans hd
  | @quoted _ u _ hu =>
      cases hhead
      exact .inl ⟨rfl, rfl, u, rfl, hu⟩
  | numeral hd hall hstop =>
      cases hhead
      refine .inr ⟨?_, hd, rfl, rfl, ?_, hstop⟩
      · rintro rfl
        exact absurd hd (by decide)
      · rintro d (- | ⟨_, hmem⟩)
        · exact isNumeric_digit hd
        · exact hall d hmem

theorem meets_matchToken (fuel : Nat) (c : UInt8) :
    Meets Location.next (fun s => Fueled text fuel s ∧ s.rest.head? = some c) (ScanFault text)
      (matchToken fuel c) fun _ token w rest => TokenSpelling token.1 token.2 w rest := by
  unfold matchToken
  cases hc : literal c with
  | some p =>
      obtain ⟨type, word⟩ := p
      refine ((meets_matchExpectedString word).map (type, ·) |>.weaken fun s hs => hs.1.1).congr_of ?_
      rintro s ⟨type', value⟩ w t ⟨-, hhead⟩ hw
      constructor
      · rintro ⟨b, h, rfl, rfl⟩
        cases h
        exact .word hc
      · intro h
        obtain ⟨rfl, hv, rfl⟩ := h.of_literal (hw.rest ▸ hhead) hc
        exact ⟨w, congrArg _ hv, rfl, rfl⟩
  | none =>
      refine (Meets.ite (fun h => (meets_matchString fuel).map (TokenType.string, ·) |>.weaken
          fun s hs => hs.1) fun h => Meets.ite (fun h => meets_matchNumber.map (TokenType.number, ·))
          fun h => (meets_fail _).weaken fun s hs => hs.1.1).congr_of ?_
      rintro s ⟨type, value⟩ w t ⟨-, hhead⟩ hw
      rw [hw.rest] at hhead
      constructor
      · split_ifs with hquote hdigit
        · rintro ⟨v, h, u, rfl, hu⟩
          cases h
          exact .quoted hu
        · rintro ⟨v, h, rfl, hall, hstop⟩
          cases h
          cases value with
          | nil =>
              -- the character peeked is numeral: the empty word does not stop in front of it
              cases (isNumeric_digit hdigit).symm.trans (hstop c hhead)
          | cons d u =>
              cases hhead
              exact .numeral hdigit (fun d hd => hall d (List.mem_cons_of_mem _ hd)) hstop
        · exact fun h => h.elim
      · intro h
        obtain ⟨rfl, rfl, u, rfl, hu⟩ | ⟨hquote, hdigit, rfl, rfl, hall, hstop⟩ :=
          h.of_not_literal hhead hc
        · exact ⟨value, rfl, u, rfl, hu⟩
        · rw [if_neg hquote, if_pos hdigit]
          exact ⟨value, rfl, rfl, hall, hstop⟩

/-! ## 3. Texts -/

theorem meets_eatWhiteSpace : Meets Location.next I (ScanFault text) eatWhiteSpace
    fun _ _ w rest => (∀ d ∈ w, isSpace d = true) ∧ StopsAt isSpace rest :=
  ((meets_readWhile isSpace).map fun _ => ()).congr fun _ _ _ _ => by simp

/-- One pass of the loop of `Scan`: a token and the white space behind it. -/
def TokenReads (tokens : List Token) : Grammar Location UInt8 (List Token) :=
  fun k tokens' w rest => ∃ type value u b, w = u ++ b ∧ TokenSpelling type value u (b ++ rest) ∧
    (∀ d ∈ b, isSpace d = true) ∧ StopsAt isSpace rest ∧
    tokens' = tokens ++ [⟨type, value, k, u.foldl Location.next k⟩]

theorem TokenSpelling.head {type : TokenType} {v w rest : Bytes} (h : TokenSpelling type v w rest) :
    ∃ c u, w = c :: u ∧ isSpace c = false := by
  cases h with
  | @word c _ _ _ hc =>
      obtain ⟨u, rfl⟩ := literal_head hc
      refine ⟨c, u, rfl, ?_⟩
      unfold literal at hc
      repeat' split at hc
      all_goals first | (subst_vars; decide) | cases hc
  | quoted _ => exact ⟨34, _, rfl, by decide⟩
  | @numeral c u _ hc _ _ =>
      refine ⟨c, u, rfl, ?_⟩
      rw [isSpace, Bool.or_eq_false_iff]
      rcases hc with rfl | ⟨hlo, hhi⟩
      · decide
      · simp only [UInt8.le_iff_toNat_le] at hlo hhi ⊢
        constructor
        · simp only [beq_eq_false_iff_ne]
          rintro rfl
          exact absurd hlo (by decide)
        · simp only [Bool.and_eq_false_iff, decide_eq_false_iff_not]
          right
          have : (13 : UInt8).toNat = 13 := rfl
          have : (48 : UInt8).toNat = 48 := rfl
          omega

theorem meets_scanToken (fuel : Nat) (tokens : List Token) :
    Meets Location.next (fun s => Fueled text fuel s ∧ (!s.rest.isEmpty) = true) (ScanFault text)
      (scanToken fuel tokens) (TokenReads tokens) := by
  have hkept := kept_fueled text fuel
  -- behind the peeked character: the token, its end, the white space
  have hrest : ∀ locBegin c, Meets Location.next
      (fun s => Fueled text fuel s ∧ s.rest.head? = some c) (ScanFault text)
      (matchToken fuel c >>= fun token => Scan.getLocation >>= fun locEnd => eatWhiteSpace >>=
        fun _ => pure (tokens ++ [⟨token.1, token.2, locBegin, locEnd⟩]))
      fun k tokens' w rest => ∃ type value u b, w = u ++ b ∧ TokenSpelling type value u (b ++ rest) ∧
        (∀ d ∈ b, isSpace d = true) ∧ StopsAt isSpace rest ∧
        tokens' = tokens ++ [⟨type, value, locBegin, u.foldl Location.next k⟩] := by
    intro locBegin c
    refine ((meets_matchToken fuel c).bind_of (J := Fueled text fuel) (fun token =>
      Meets.look_bind fun locEnd => (Meets.bind hkept meets_eatWhiteSpace fun _ =>
        meets_pure _).weaken fun s hs => hs.1) fun s b u t hs hu _ => hkept hs.1 hu).congr ?_
    rintro k tokens' w rest
    constructor
    · rintro ⟨⟨type, value⟩, u, _, rfl, htoken, _, b, _, rfl, ⟨hb, hstop⟩, rfl, rfl⟩
      exact ⟨type, value, u, b, by simp, by simpa using htoken, hb, by simpa using hstop, rfl⟩
    · rintro ⟨type, value, u, b, rfl, htoken, hb, hstop, rfl⟩
      exact ⟨⟨type, value⟩, u, b, rfl, htoken, (), b, [], by simp, ⟨hb, hstop⟩, rfl, rfl⟩
  refine ((Meets.look_bind fun locBegin => Meets.look_bind fun c =>
    (hrest locBegin c).weaken ?_).congr fun k tokens' w rest => Iff.rfl)
  rintro s ⟨⟨⟨hs, hne⟩, -⟩, hc⟩
  refine ⟨hs, ?_⟩
  cases h : s.rest with
  | nil => simp [h] at hne
  | cons d u => simpa [h] using hc

theorem TokenReads.progress {tokens tokens' : List Token} {k : Location} {w rest : Bytes}
    (h : TokenReads tokens k tokens' w rest) : w ≠ [] := by
  obtain ⟨type, value, u, b, rfl, htoken, -⟩ := h
  obtain ⟨c, u, rfl, -⟩ := htoken.head
  exact List.cons_ne_nil c _

/-- The tokens of a text that begins with one, each with the place it is at. -/
inductive TokensAt : Location → List Token → Bytes → Prop
  | nil {k : Location} : TokensAt k [] []
  | cons {k : Location} {type : TokenType} {value u b rest : Bytes} {tokens : List Token} :
      TokenSpelling type value u (b ++ rest) → (∀ d ∈ b, isSpace d = true) → StopsAt isSpace rest →
      TokensAt ((u ++ b).foldl Location.next k) tokens rest →
      TokensAt k (⟨type, value, k, u.foldl Location.next k⟩ :: tokens) (u ++ b ++ rest)

theorem turns_tokens {k : Location} {tokens tokens' : List Token} {w rest : Bytes} :
    Turns Location.next (fun _ rest => !rest.isEmpty) TokenReads tokens k tokens' w rest ↔
      ∃ found, rest = [] ∧ tokens' = tokens ++ found ∧ TokensAt k found w := by
  constructor
  · intro h
    induction h with
    | done hend => exact ⟨[], by simpa using hend, (List.append_nil _).symm, .nil⟩
    | @turn tokens₁ tokens₂ _ k _ v rest hcond hR _ ih =>
        obtain ⟨type, value, u, b, rfl, htoken, hb, hstop, rfl⟩ := hR
        obtain ⟨found, rfl, rfl, hfound⟩ := ih
        refine ⟨_ :: found, rfl, List.append_assoc .., .cons ?_ hb ?_ hfound⟩
        · simpa using htoken
        · simpa using hstop
  · rintro ⟨found, rfl, rfl, h⟩
    induction h generalizing tokens with
    | nil => exact (List.append_nil tokens).symm ▸ .done rfl
    | @cons k type value u b rest found htoken hb hstop _ ih =>
        have hnext := @ih (tokens ++ [⟨type, value, k, u.foldl Location.next k⟩])
        rw [List.append_assoc] at hnext
        refine .turn ?_ ⟨type, value, u, b, rfl, ?_, hb, ?_, rfl⟩ hnext
        · obtain ⟨c, u, rfl, -⟩ := htoken.head
          rfl
        · simpa using htoken
        · simpa using hstop

theorem meets_scan (fuel : Nat) :
    Meets Location.next (Fueled text fuel) (ScanFault text) (scan fuel)
      fun k tokens w rest => ∃ b u, w = b ++ u ∧ rest = [] ∧ (∀ d ∈ b, isSpace d = true) ∧
        StopsAt isSpace u ∧ TokensAt (b.foldl Location.next k) tokens u := by
  have hloop : Meets Location.next (Fueled text fuel) (ScanFault text)
      (whileLoop .outOfFuel (fun _ rest => !rest.isEmpty) (scanToken fuel) fuel [])
      (Turns Location.next (fun _ rest => !rest.isEmpty) TokenReads []) :=
    (Meets.whileLoop (kept_fueled text fuel) (meets_scanToken fuel) TokenReads.progress fuel []).weaken
      fun s hs => ⟨hs, hs.2⟩
  refine (Meets.bind (kept_fueled text fuel) meets_eatWhiteSpace fun _ => hloop).congr
    fun k tokens w rest => ?_
  constructor
  · rintro ⟨_, b, u, rfl, ⟨hb, hstop⟩, hu⟩
    obtain ⟨found, rfl, rfl, hfound⟩ := turns_tokens.mp hu
    exact ⟨b, u, rfl, rfl, hb, by simpa using hstop, hfound⟩
  · rintro ⟨b, u, rfl, rfl, hb, hstop, hu⟩
    exact ⟨(), b, u, rfl, ⟨hb, by simpa using hstop⟩, turns_tokens.mpr ⟨tokens, rfl, rfl, hu⟩⟩

end Scanner

/-- What the parser sees of a token. -/
def Token.lexeme (t : Token) : TokenType × Bytes := (t.type, t.value)

/-- How a sequence of tokens is written: white space anywhere between them, and nothing that would
    make a number longer behind it. -/
inductive LexemesSpelling : List (TokenType × Bytes) → Bytes → Prop
  | nil : LexemesSpelling [] []
  | blank {c : UInt8} {lexemes : List (TokenType × Bytes)} {w : Bytes} : isSpace c = true →
      LexemesSpelling lexemes w → LexemesSpelling lexemes (c :: w)
  | token {type : TokenType} {value u w : Bytes} {lexemes : List (TokenType × Bytes)} :
      TokenSpelling type value u w → LexemesSpelling lexemes w →
      LexemesSpelling ((type, value) :: lexemes) (u ++ w)

theorem LexemesSpelling.blanks {lexemes : List (TokenType × Bytes)} {b w : Bytes}
    (hb : ∀ d ∈ b, isSpace d = true) (h : LexemesSpelling lexemes w) :
    LexemesSpelling lexemes (b ++ w) := by
  induction b with
  | nil => exact h
  | cons c b ih => exact .blank (hb c (by simp)) (ih fun d hd => hb d (List.mem_cons_of_mem c hd))

theorem TokensAt.spelling {k : Location} {tokens : List Token} {w : Bytes} (h : TokensAt k tokens w) :
    LexemesSpelling (tokens.map Token.lexeme) w := by
  induction h with
  | nil => exact .nil
  | cons htoken hb _ _ ih =>
      rw [List.append_assoc]
      exact .token htoken (ih.blanks hb)

theorem LexemesSpelling.at {lexemes : List (TokenType × Bytes)} {w : Bytes}
    (h : LexemesSpelling lexemes w) (k : Location) :
    ∃ b u tokens, w = b ++ u ∧ (∀ d ∈ b, isSpace d = true) ∧ StopsAt isSpace u ∧
      TokensAt (b.foldl Location.next k) tokens u ∧ tokens.map Token.lexeme = lexemes := by
  induction h generalizing k with
  | nil => exact ⟨[], [], [], rfl, by simp, by simp [StopsAt], .nil, rfl⟩
  | @blank c _ _ hc _ ih =>
      obtain ⟨b, u, tokens, rfl, hb, hstop, htokens, hlexemes⟩ := ih (k.next c)
      refine ⟨c :: b, u, tokens, rfl, ?_, hstop, htokens, hlexemes⟩
      rintro d (- | ⟨_, hd⟩)
      · exact hc
      · exact hb d hd
  | @token type value u w lexemes htoken _ ih =>
      obtain ⟨b, v, tokens, rfl, hb, hstop, htokens, rfl⟩ := ih (u.foldl Location.next k)
      refine ⟨[], u ++ (b ++ v), ⟨type, value, k, u.foldl Location.next k⟩ :: tokens, rfl, by simp, ?_,
        ?_, rfl⟩
      · obtain ⟨c, u, rfl, hc⟩ := htoken.head
        rintro d ⟨⟩
        exact hc
      · rw [← List.append_assoc]
        exact .cons htoken hb hstop (by simpa using htokens)

/-- A token of the text: what is written between the two locations. -/
def TokenOf (text : Bytes) (t : Token) : Prop :=
  ∃ p u q, text = p ++ u ++ q ∧ TokenSpelling t.type t.value u q ∧
    t.locBegin = locationOf p ∧ t.locEnd = locationOf (p ++ u)

theorem TokensAt.tokenOf {k : Location} {tokens : List Token} {w : Bytes} (h : TokensAt k tokens w)
    (p : Bytes) (hk : k = locationOf p) : ∀ t ∈ tokens, TokenOf (p ++ w) t := by
  induction h generalizing p with
  | nil => simp
  | @cons k type value u b rest tokens htoken _ _ _ ih =>
      subst hk
      rintro t (- | ⟨_, ht⟩)
      · exact ⟨p, u, b ++ rest, by simp, htoken, rfl, (List.foldl_append ..).symm⟩
      · have htail := ih (p ++ (u ++ b)) (List.foldl_append ..).symm t ht
        rwa [List.append_assoc] at htail

variable {text : Bytes}

theorem fueled_start (text : Bytes) : Fueled text (text.length + 1) ⟨{}, text⟩ :=
  ⟨⟨[], rfl, rfl⟩, Nat.lt_succ_self _⟩

/-- The scanner finds the tokens a text is written with, each at its place. -/
theorem scan_ok {tokens : List Token} {s : InputStream}
    (h : scan (text.length + 1) ⟨{}, text⟩ = .ok (tokens, s)) :
    LexemesSpelling (tokens.map Token.lexeme) text ∧ ∀ t ∈ tokens, TokenOf text t := by
  obtain ⟨w, hw, b, u, rfl, hend, hb, -, htokens⟩ :=
    ((meets_scan _).reads _ (fueled_start text) tokens s).mp h
  have htext : text = b ++ u := by simpa [hend] using hw.rest
  subst htext
  exact ⟨htokens.spelling.blanks hb, htokens.tokenOf b rfl⟩

theorem scan_of_spelling {lexemes : List (TokenType × Bytes)} (h : LexemesSpelling lexemes text) :
    ∃ tokens s, scan (text.length + 1) ⟨{}, text⟩ = .ok (tokens, s) ∧
      tokens.map Token.lexeme = lexemes := by
  obtain ⟨b, u, tokens, rfl, hb, hstop, htokens, hlexemes⟩ := h.at {}
  refine ⟨tokens, ⟨locationOf (b ++ u), []⟩, ?_, hlexemes⟩
  refine ((meets_scan _).reads _ (fueled_start _) tokens _).mpr
    ⟨b ++ u, ⟨(List.append_nil _).symm, rfl⟩, b, u, rfl, rfl, hb, hstop, htokens⟩

theorem scan_error {e : ReadException} (h : scan (text.length + 1) ⟨{}, text⟩ = .error e) :
    ScanFault text e :=
  (meets_scan _).fails _ (fueled_start text) e h

/-- A text is written with one sequence of tokens at most. -/
theorem LexemesSpelling.unique {l l' : List (TokenType × Bytes)} (h : LexemesSpelling l text)
    (h' : LexemesSpelling l' text) : l = l' := by
  obtain ⟨tokens, s, hs, rfl⟩ := scan_of_spelling h
  obtain ⟨tokens', s', hs', rfl⟩ := scan_of_spelling h'
  cases hs.symm.trans hs'
  rfl

end Domoio.Reader
