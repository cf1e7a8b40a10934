import Domoio.Lib.CText

/-
  File:      Domoio/Lib/Numeral.lean
  Subject:   Decimal numerals: their value, and what the scanners of the C library read of them.

  * `Numeral` -- a text of digits with an optional sign, and its value;
  * `Numeral.strtol`, `Numeral.scanInt` -- the scanners read a numeral up to the first character
    behind it, the value clamped to the range of `long`;
  * `numeral_decimal`, `atoi_decimal` -- what `snprintf` prints is a numeral, and reads back.
-/

namespace Lib

/-- The value of digits behind a value. -/
def digitsValue (acc : Nat) (digits : Bytes) : Nat :=
  digits.foldl (fun n c => n * 10 + (c.toNat - 48)) acc

@[simp] theorem digitsValue_nil (acc : Nat) : digitsValue acc [] = acc := rfl

@[simp] theorem digitsValue_cons (acc : Nat) (c : UInt8) (digits : Bytes) :
    digitsValue acc (c :: digits) = digitsValue (acc * 10 + (c.toNat - 48)) digits :=
  List.foldl_cons

/-- Digits with an optional sign, and their value. -/
inductive Numeral : Bytes → Int → Prop
  | plain (digits : Bytes) (n : Int) (hne : digits ≠ []) (h : ∀ c ∈ digits, isDigit c = true)
      (hn : (digitsValue 0 digits : Int) = n) : Numeral digits n
  | plus (digits : Bytes) (n : Int) (hne : digits ≠ []) (h : ∀ c ∈ digits, isDigit c = true)
      (hn : (digitsValue 0 digits : Int) = n) : Numeral (43 :: digits) n
  | minus (digits : Bytes) (n : Int) (hne : digits ≠ []) (h : ∀ c ∈ digits, isDigit c = true)
      (hn : -(digitsValue 0 digits : Int) = n) : Numeral (45 :: digits) n

/-! ## 1. Characters -/

theorem isDigit_iff {c : UInt8} : isDigit c = true ↔ 48 ≤ c.toNat ∧ c.toNat ≤ 57 := by
  simp only [isDigit, Bool.and_eq_true, decide_eq_true_eq, UInt8.le_iff_toNat_le]
  rfl

/-- The scanners take the digits for what they are. -/
theorem digitValue_digit {c : UInt8} (h : isDigit c = true) : digitValue 10 c = some (c.toNat - 48) := by
  have hc := h
  simp only [isDigit, Bool.and_eq_true, decide_eq_true_eq] at hc
  have hbounds := isDigit_iff.mp h
  have hlt : c.toNat - 48 < 10 := by omega
  simp [digitValue, hc, hlt]

/-- And nothing else. -/
theorem digitValue_other {c : UInt8} (h : isDigit c = false) : digitValue 10 c = none := by
  have hnot : ¬ (48 ≤ c ∧ c ≤ 57) := by simpa [isDigit] using h
  simp only [digitValue, if_neg hnot]
  by_cases hlower : 97 ≤ c ∧ c ≤ 122
  · have hlo : 97 ≤ c.toNat := UInt8.le_iff_toNat_le.mp hlower.1
    have hten : 10 ≤ c.toNat - 87 := by omega
    simp [hlower, hten]
  by_cases hupper : 65 ≤ c ∧ c ≤ 90
  · have hlo : 65 ≤ c.toNat := UInt8.le_iff_toNat_le.mp hupper.1
    have hten : 10 ≤ c.toNat - 55 := by omega
    simp [hlower, hupper, hten]
  · simp [hlower, hupper]

/-- A digit is no white space and no sign. -/
theorem isDigit_plain {c : UInt8} (h : isDigit c = true) :
    isSpace c = false ∧ c ≠ 45 ∧ c ≠ 43 := by
  obtain ⟨hlo, hhi⟩ := isDigit_iff.mp h
  have hne : ∀ d : UInt8, d.toNat < 48 ∨ 57 < d.toNat → c ≠ d := by
    intro d hd hcd
    subst hcd
    omega
  refine ⟨?_, hne 45 (by decide), hne 43 (by decide)⟩
  have hspace : ¬ (9 ≤ c ∧ c ≤ 13) := by
    rintro ⟨-, hc⟩
    have hc' : c.toNat ≤ 13 := UInt8.le_iff_toNat_le.mp hc
    omega
  simp only [isSpace, Bool.or_eq_false_iff, beq_eq_false_iff_ne]
  exact ⟨hne 32 (by decide), by simpa using hspace⟩

/-! ## 2. Scanning -/

variable {text digits rest : Bytes} {n : Int}

/-- The memory behind a numeral goes on with another character. -/
def Stops (rest : Bytes) : Prop := ∃ c cs, rest = c :: cs ∧ isDigit c = false

theorem scanDigits_stops (acc : Nat) (h : Stops rest) : scanDigits 10 acc rest = some (acc, rest) := by
  obtain ⟨c, cs, rfl, hc⟩ := h
  rw [scanDigits, digitValue_other hc]

theorem scanDigits_digits (acc : Nat) (h : ∀ c ∈ digits, isDigit c = true) (hrest : Stops rest) :
    scanDigits 10 acc (digits ++ rest) = some (digitsValue acc digits, rest) := by
  induction digits generalizing acc with
  | nil => exact scanDigits_stops acc hrest
  | cons c digits ih =>
      rw [List.cons_append, scanDigits, digitValue_digit (h c List.mem_cons_self)]
      exact ih _ fun d hd => h d (List.mem_cons_of_mem c hd)

/-- What the scanners find of a numeral: its sign and its digits. -/
theorem Numeral.scan (h : Numeral text n) (hrest : Stops rest) : ∃ negative digits,
    skipSpace (text ++ rest) = some (text ++ rest) ∧
      scanSign (text ++ rest) = (negative, digits ++ rest) ∧ digits ≠ [] ∧
      scanDigits 10 0 (digits ++ rest) = some (digitsValue 0 digits, rest) ∧
      (if negative then -(digitsValue 0 digits : Int) else digitsValue 0 digits) = n ∧
      ∀ c ∈ digits, isDigit c = true := by
  cases h with
  | plain _ _ hne h hn =>
      obtain ⟨c, cs, rfl⟩ := List.exists_cons_of_ne_nil hne
      obtain ⟨hspace, hminus, hplus⟩ := isDigit_plain (h c List.mem_cons_self)
      refine ⟨false, c :: cs, ?_, ?_, hne, scanDigits_digits 0 h hrest, hn, h⟩
      · simp [skipSpace, hspace]
      · simp [scanSign, hminus, hplus]
  | plus digits _ hne h hn =>
      refine ⟨false, digits, ?_, ?_, hne, scanDigits_digits 0 h hrest, hn, h⟩
      · simp [skipSpace, isSpace]
      · simp [scanSign]
  | minus digits _ hne h hn =>
      refine ⟨true, digits, ?_, ?_, hne, scanDigits_digits 0 h hrest, hn, h⟩
      · simp [skipSpace, isSpace]
      · simp [scanSign]

/-- `strtol` of a numeral. -/
theorem Numeral.strtol (h : Numeral text n) (hrest : Stops rest) :
    Lib.strtol 10 (text ++ rest) = some (clampLong n) := by
  obtain ⟨negative, digits, hskip, hsign, hne, hscan, hvalue, -⟩ := h.scan hrest
  have hprefix : skipHexPrefix 10 (digits ++ rest) = some (digits ++ rest) := by
    obtain ⟨c, cs, rfl⟩ := List.exists_cons_of_ne_nil hne
    rw [List.cons_append]
    cases cs ++ rest <;> simp [skipHexPrefix]
  simp only [Lib.strtol, hskip, hsign, hprefix, hscan, Option.bind_eq_bind, Option.bind_some,
    hvalue]
  rfl

/-- The `%d` of a numeral. -/
theorem Numeral.scanInt (h : Numeral text n) (hrest : Stops rest) :
    Lib.scanInt (text ++ rest) = some (Int32.ofInt (clampLong n), rest) := by
  obtain ⟨negative, digits, hskip, hsign, hne, hscan, hvalue, -⟩ := h.scan hrest
  have hlength : rest.length ≠ (digits ++ rest).length := by
    have hpos := List.length_pos_iff.mpr hne
    rw [List.length_append]
    omega
  simp only [Lib.scanInt, hskip, hsign, hscan, Option.bind_eq_bind, Option.bind_some,
    if_neg hlength, hvalue]
  rfl

/-- A numeral is made of digits and a sign. -/
theorem Numeral.mem (h : Numeral text n) {c : UInt8} (hc : c ∈ text) :
    isDigit c = true ∨ c = 43 ∨ c = 45 := by
  cases h with
  | plain _ _ hne h => exact Or.inl (h c hc)
  | plus _ _ hne h =>
      rcases List.mem_cons.mp hc with hsign | hc
      · exact Or.inr (Or.inl hsign)
      · exact Or.inl (h c hc)
  | minus _ _ hne h =>
      rcases List.mem_cons.mp hc with hsign | hc
      · exact Or.inr (Or.inr hsign)
      · exact Or.inl (h c hc)

/-- Another character does not occur in a numeral. -/
theorem Numeral.notMem (h : Numeral text n) {c : UInt8} (hdigit : isDigit c = false)
    (hplus : c ≠ 43) (hminus : c ≠ 45) : c ∉ text := by
  intro hc
  rcases h.mem hc with hc | hc | hc
  · rw [hdigit] at hc
    cases hc
  · exact hplus hc
  · exact hminus hc

theorem Numeral.nulFree (h : Numeral text n) : NulFree text := by
  intro c hc hnul
  subst hnul
  exact h.notMem (by decide) (by decide) (by decide) hc

/-- `atoi` of a numeral. -/
theorem Numeral.atoi (h : Numeral text n) : Lib.atoi text = Int32.ofInt (clampLong n) := by
  have hstop : Stops [0] := ⟨0, [], rfl, by decide⟩
  rw [Lib.atoi, cString_of_nulFree h.nulFree, h.strtol hstop]
  rfl

/-- Inside the range of `int` nothing is lost. -/
theorem clampLong_int32 (n : Int32) : Int32.ofInt (clampLong n.toInt) = n := by
  have hlo := Int32.le_toInt n
  have hhi := Int32.toInt_lt n
  have hclamp : clampLong n.toInt = n.toInt := by
    unfold clampLong
    omega
  rw [hclamp, Int32.ofInt_toInt]

/-! ## 3. Printing -/

/-- The digits that are printed have the number's value. -/
theorem digitsValue_ascii (acc : Nat) (s : List Char) (h : ∀ c ∈ s, c.isDigit = true) :
    digitsValue acc (s.map fun c => UInt8.ofNat c.toNat) = Nat.ofDigitChars 10 s acc ∧
      ∀ b ∈ s.map fun c => UInt8.ofNat c.toNat, isDigit b = true := by
  induction s generalizing acc with
  | nil => exact ⟨rfl, fun b hb => by cases hb⟩
  | cons c s ih =>
      obtain ⟨hlo, hhi⟩ := isDigit_bounds (h c List.mem_cons_self)
      have hbyte : (UInt8.ofNat c.toNat).toNat = c.toNat := by
        rw [UInt8.toNat_ofNat']
        omega
      obtain ⟨hvalue, hdigits⟩ := ih (acc * 10 + (c.toNat - 48)) fun d hd =>
        h d (List.mem_cons_of_mem c hd)
      constructor
      · rw [List.map_cons, digitsValue_cons, hbyte, hvalue, Nat.ofDigitChars_cons, Nat.mul_comm]
        rfl
      · intro b hb
        rcases List.mem_cons.mp hb with rfl | hb
        · exact isDigit_iff.mpr (by rw [hbyte]; exact ⟨hlo, hhi⟩)
        · exact hdigits b hb

theorem digitsValue_repr (n : Nat) : digitsValue 0 (ascii n.repr) = n ∧
    (∀ b ∈ ascii n.repr, isDigit b = true) ∧ ascii n.repr ≠ [] := by
  obtain ⟨hvalue, hdigits⟩ := digitsValue_ascii 0 n.repr.toList fun c hc => isDigit_of_mem_repr hc
  refine ⟨?_, hdigits, ?_⟩
  · rw [ascii, hvalue, Nat.toList_repr, Nat.ofDigitChars_ten_toDigits]
  · intro hnil
    have hlength := congrArg List.length hnil
    simp [ascii] at hlength

/-- What `%d` prints is a numeral of the number. -/
theorem numeral_decimal (n : Int32) : Numeral (decimal n) n.toInt := by
  rw [decimal]
  cases n.toInt with
  | ofNat m =>
      obtain ⟨hvalue, hdigits, hne⟩ := digitsValue_repr m
      have htext : ascii (toString (Int.ofNat m)) = ascii m.repr := rfl
      rw [htext]
      exact Numeral.plain _ _ hne hdigits (by rw [hvalue]; rfl)
  | negSucc m =>
      obtain ⟨hvalue, hdigits, hne⟩ := digitsValue_repr (m + 1)
      have htext : ascii (toString (Int.negSucc m)) = 45 :: ascii (m + 1).repr := by
        have hneg : toString (Int.negSucc m) = "-" ++ (m + 1).repr := rfl
        rw [hneg, ascii, String.toList_append, List.map_append]
        rfl
      rw [htext]
      exact Numeral.minus _ _ hne hdigits (by rw [hvalue]; rfl)

theorem atoi_decimal (n : Int32) : atoi (decimal n) = n := by
  rw [(numeral_decimal n).atoi, clampLong_int32]

end Lib
