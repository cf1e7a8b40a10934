import Mathlib

/-
  File:      Domoio/Lib/CText.lean
  Subject:   Text as C and C++ programs see it: byte strings, NUL termination, number scanning.

  `std::string` is a byte string (`Bytes`), a `char*` is the bytes up to the first NUL
  (`cString`). The scanners of the C library are written over a list of bytes that stands for the
  memory from the pointer on: `none` means that the scan ran off the end of that memory.
-/

namespace Lib

/-- A byte string (`std::string`, or a buffer). -/
abbrev Bytes := List UInt8

/-- The bytes of an ASCII literal. -/
def ascii (s : String) : Bytes := s.toList.map fun c => UInt8.ofNat c.toNat

/-- What a `char*` to these bytes denotes: everything before the first NUL. -/
def cString (b : Bytes) : Bytes := b.takeWhile (· != 0)

/-- No NUL inside. -/
def NulFree (b : Bytes) : Prop := ∀ c ∈ b, c ≠ 0

instance (b : Bytes) : Decidable (NulFree b) := List.decidableBAll (fun c => c ≠ 0) b

theorem cString_of_nulFree {b : Bytes} (h : NulFree b) : cString b = b := by
  unfold cString
  rw [List.takeWhile_eq_self_iff]
  intro c hc
  simpa using h c hc

@[simp] theorem cString_append_nul {b : Bytes} (h : NulFree b) (t : Bytes) :
    cString (b ++ 0 :: t) = b := by
  unfold cString
  rw [List.takeWhile_append_of_pos (by intro c hc; simpa using h c hc)]
  simp

theorem nulFree_cString (b : Bytes) : NulFree (cString b) := by
  intro c hc
  simpa using List.mem_takeWhile_imp hc

/-- The `std::string` built from a `char*` into a buffer: `none` when the buffer holds no NUL. -/
def bufferString (buffer : Bytes) : Option Bytes :=
  if 0 ∈ buffer then some (cString buffer) else none

theorem bufferString_append_nul {b : Bytes} (h : NulFree b) (t : Bytes) :
    bufferString (b ++ 0 :: t) = some b := by
  simp [bufferString, h]

theorem bufferString_eq_some {buffer s : Bytes} (h : bufferString buffer = some s) :
    s = cString buffer := by
  unfold bufferString at h
  split at h
  · exact (Option.some.inj h).symm
  · cases h

/-- Zeroes behind a buffer do not change its C string. -/
theorem cString_append_zeroes (b : Bytes) (n : Nat) :
    cString (b ++ List.replicate n 0) = cString b := by
  induction b with
  | nil => cases n <;> rfl
  | cons c b ih =>
      by_cases hc : c = 0
      · simp [cString, hc]
      · simp only [cString, List.cons_append] at ih ⊢
        rw [List.takeWhile_cons_of_pos (by simpa using hc),
          List.takeWhile_cons_of_pos (by simpa using hc), ih]

/-- `isspace` in the C locale. -/
def isSpace (c : UInt8) : Bool := c == 32 || (9 ≤ c && c ≤ 13)

/-- A decimal digit (`isdigit`, and `\d`, in the C locale). -/
def isDigit (c : UInt8) : Bool := 48 ≤ c && c ≤ 57

/-- `boost::trim_right`. -/
def trimRight (b : Bytes) : Bytes := (b.reverse.dropWhile isSpace).reverse

/-- `boost::tokenizer` with `char_separator(" ")`: the maximal runs of other characters. -/
def tokensFrom : Bytes → Bytes → List Bytes
  | word, [] => if word = [] then [] else [word]
  | word, c :: cs =>
      if c = 32 then (if word = [] then tokensFrom [] cs else word :: tokensFrom [] cs)
      else tokensFrom (word ++ [c]) cs

def tokens (b : Bytes) : List Bytes := tokensFrom [] b

/-! ## 1. Number scanning -/

/-- The value of a digit in the base, as `strtol` reads it. -/
def digitValue (base : Nat) (c : UInt8) : Option Nat :=
  let v :=
    if 48 ≤ c ∧ c ≤ 57 then some (c.toNat - 48)
    else if 97 ≤ c ∧ c ≤ 122 then some (c.toNat - 87)
    else if 65 ≤ c ∧ c ≤ 90 then some (c.toNat - 55)
    else none
  v.filter (· < base)

/-- Digits from the pointer on: their value after `acc`, and the memory from the first other
    character on. -/
def scanDigits (base : Nat) : Nat → Bytes → Option (Nat × Bytes)
  | _, [] => none
  | acc, c :: cs =>
      match digitValue base c with
      | some d => scanDigits base (acc * base + d) cs
      | none => some (acc, c :: cs)

/-- White space from the pointer on is skipped. -/
def skipSpace : Bytes → Option Bytes
  | [] => none
  | c :: cs => if isSpace c then skipSpace cs else some (c :: cs)

/-- An optional sign: whether it is a minus, and the memory behind it. -/
def scanSign : Bytes → Bool × Bytes
  | [] => (false, [])
  | c :: cs => if c = 45 then (true, cs) else if c = 43 then (false, cs) else (false, c :: cs)

/-- The `0x` prefix base 16 admits. The character after a leading `0` is read to decide. -/
def skipHexPrefix (base : Nat) : Bytes → Option Bytes
  | [] => none
  | [c] => if base = 16 ∧ c = 48 then none else some [c]
  | c :: x :: cs => some (if base = 16 ∧ c = 48 ∧ (x = 120 ∨ x = 88) then cs else c :: x :: cs)

/-- A value outside the range of `long` is clamped to its nearest end. -/
def clampLong (n : Int) : Int := max (-2 ^ 63) (min n (2 ^ 63 - 1))

/-- `strtol(p, NULL, base)` where the memory from `p` on holds `b`. -/
def strtol (base : Nat) (b : Bytes) : Option Int := do
  let b ← skipSpace b
  let (negative, b) := scanSign b
  let b ← skipHexPrefix base b
  let (n, _) ← scanDigits base 0 b
  return clampLong (if negative then -(n : Int) else n)

/-- `atoi(s.c_str())`: `strtol` in base 10, truncated to `int`. -/
def atoi (s : Bytes) : Int32 := Int32.ofInt ((strtol 10 (cString s ++ [0])).getD 0)

/-- The `%d` conversion of `sscanf`: the value it stores and the input behind it, or nothing when
    no digit is found. -/
def scanInt (b : Bytes) : Option (Int32 × Bytes) := do
  let b ← skipSpace b
  let (negative, digits) := scanSign b
  let (n, rest) ← scanDigits 10 0 digits
  if rest.length = digits.length then none
  else return (Int32.ofInt (clampLong (if negative then -(n : Int) else n)), rest)

/-- `sscanf(s.c_str(), "%d:%d", &a, &b)`: what is stored in `a` and in `b`, where anything is. -/
def sscanfPair (s : Bytes) : Option Int32 × Option Int32 :=
  match scanInt (cString s ++ [0]) with
  | none => (none, none)
  | some (a, rest) =>
      -- the format's literal ':' stops the scan at any other character
      if rest.head? = some 58 then (some a, (scanInt rest.tail).map (·.1)) else (some a, none)

/-- `snprintf("%d")`. -/
def decimal (n : Int32) : Bytes := ascii (toString n.toInt)

theorem isDigit_of_mem_repr {n : Nat} {c : Char} (h : c ∈ n.repr.toList) : c.isDigit = true := by
  rw [Nat.toList_repr] at h
  exact Nat.isDigit_of_mem_toDigits (by omega) (by omega) h

/-- A printed number has digits and a sign only. -/
theorem sign_or_digit_of_mem {n : Int} {c : Char} (hc : c ∈ (toString n).toList) :
    c = '-' ∨ c.isDigit = true := by
  cases n with
  | ofNat m => exact Or.inr (isDigit_of_mem_repr hc)
  | negSucc m =>
      have hneg : toString (Int.negSucc m) = "-" ++ (m + 1).repr := rfl
      rw [hneg, String.toList_append, List.mem_append] at hc
      rcases hc with hc | hc
      · exact Or.inl (by simpa using hc)
      · exact Or.inr (isDigit_of_mem_repr hc)

theorem isDigit_bounds {c : Char} (h : c.isDigit = true) : 48 ≤ c.toNat ∧ c.toNat ≤ 57 := by
  simp only [Char.isDigit, Bool.and_eq_true, decide_eq_true_eq] at h
  exact ⟨UInt32.le_iff_toNat_le.mp h.1, UInt32.le_iff_toNat_le.mp h.2⟩

theorem nulFree_decimal (n : Int32) : NulFree (decimal n) := by
  intro b hb
  obtain ⟨c, hc, rfl⟩ := List.mem_map.mp hb
  rcases sign_or_digit_of_mem hc with rfl | hdigit
  · decide
  · obtain ⟨hlo, hhi⟩ := isDigit_bounds hdigit
    intro h0
    have hval := congrArg UInt8.toNat h0
    simp only [UInt8.toNat_ofNat'] at hval
    have hz : (0 : UInt8).toNat = 0 := rfl
    omega

/-- Characters below 256 are kept apart. -/
theorem ascii_inj {s t : String} (hs : ∀ c ∈ s.toList, c.toNat < 256)
    (ht : ∀ c ∈ t.toList, c.toNat < 256) (h : ascii s = ascii t) : s = t := by
  have hback : ∀ {u : String}, (∀ c ∈ u.toList, c.toNat < 256) →
      (ascii u).map (fun b => Char.ofNat b.toNat) = u.toList := by
    intro u hu
    rw [ascii, List.map_map]
    refine (List.map_congr_left fun c hc => ?_).trans (List.map_id _)
    have hmod : c.toNat % 2 ^ 8 = c.toNat := Nat.mod_eq_of_lt (hu c hc)
    show Char.ofNat (UInt8.ofNat c.toNat).toNat = c
    rw [UInt8.toNat_ofNat', hmod, Char.ofNat_toNat]
  have hlist := congrArg (List.map fun b : UInt8 => Char.ofNat b.toNat) h
  rw [hback hs, hback ht] at hlist
  exact String.toList_injective hlist

theorem decimal_injective : Function.Injective decimal := by
  intro a b h
  have hsmall : ∀ {n : Int}, ∀ c ∈ (toString n).toList, c.toNat < 256 := by
    intro n c hc
    rcases sign_or_digit_of_mem hc with rfl | hdigit
    · decide
    · have hbounds := isDigit_bounds hdigit
      omega
  exact Int32.toInt_inj.mp (Int.repr_injective (ascii_inj hsmall hsmall h))

end Lib
