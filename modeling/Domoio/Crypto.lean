import Domoio.Lib.CText

/-
  File:      Domoio/Crypto.lean
  Subject:   The hexadecimal codec and the session string (src/crypto/crypto.cc, block_cipher.cc).

  * `hexEncode`, `hexDecode` -- as the code computes them: the encoder fills a zeroed buffer of
    `3n + 1` bytes by `sprintf("%02x ")`, the decoder reads one `strtol` for every third byte;
  * `hexEncode_eq` -- the encoding is the `hexText`, three characters a byte, and its NUL;
  * `hexDecode_hexText` -- whatever follows the text, decoding its `n` groups gives the bytes back.

  The encryption itself is switched off in the connection ("DISABLE ENCRYPTATION"); of the cipher
  the connection uses the IV only, in the session string.
-/

namespace Domoio

open Lib

/-! ## 1. The code -/

/-- The lower-case digit of a nibble, as `%x` prints it. -/
def hexDigit (n : Nat) : UInt8 := if n < 10 then UInt8.ofNat (48 + n) else UInt8.ofNat (87 + n)

/-- `"%02x "` of a byte. -/
def hexGroup (b : UInt8) : Bytes := [hexDigit (b.toNat / 16), hexDigit (b.toNat % 16), 32]

/-- Memory `buffer` after `bytes` are written from offset `at` on. -/
def writeAt (buffer : Bytes) (offset : Nat) (bytes : Bytes) : Bytes :=
  buffer.take offset ++ bytes ++ buffer.drop (offset + bytes.length)

/-- The encoder's loop from byte `i` on: `sprintf` writes the group and a NUL at `3 * i`. -/
def hexEncodeLoop : Nat → Bytes → Bytes → Bytes
  | _, [], buffer => buffer
  | i, b :: input, buffer => hexEncodeLoop (i + 1) input (writeAt buffer (i * 3) (hexGroup b ++ [0]))

/-- `hex_encode`: the allocated buffer; the reported length is its length. -/
def hexEncode (input : Bytes) : Bytes :=
  let reqLength := input.length * 3 + 1
  hexEncodeLoop 0 input (List.replicate reqLength 0)

/-- `(unsigned char) v`. -/
def toUChar (v : Int) : UInt8 := UInt8.ofNat (v % 256).toNat

/-- The decoder's loop: `n` groups from the pointer on. -/
def hexDecodeLoop : Nat → Bytes → Option Bytes
  | 0, _ => some []
  | n + 1, input => do
      let v ← strtol 16 input
      let rest ← hexDecodeLoop n (input.drop 3)
      return toUChar v :: rest

/-- `hex_decode` on memory `input` with `*length = length`; `none` when `strtol` runs off the end
    of the memory. An allocation does not fail here, that of zero bytes included. -/
def hexDecode (input : Bytes) (length : Int) : Option Bytes :=
  let reqLength := (length - 1).tdiv 3
  hexDecodeLoop reqLength.toNat input

/-- `crypto::BlockCipher`: the key material and the IV. -/
structure BlockCipher where
  password : Bytes
  iv : Bytes
  deriving DecidableEq

/-- `BlockCipher::session_string`: the IV in hex (the stream stops at its NUL) and the clock, a
    `time_t`. -/
def BlockCipher.sessionString (cipher : BlockCipher) (currentTime : Int) : Bytes :=
  cString (hexEncode cipher.iv) ++ ascii (toString currentTime)

/-! ## 2. The encoding -/

/-- Three characters a byte. -/
def hexText (input : Bytes) : Bytes := input.flatMap hexGroup

@[simp] theorem hexText_nil : hexText [] = [] := rfl

@[simp] theorem hexText_cons (b : UInt8) (input : Bytes) :
    hexText (b :: input) = hexGroup b ++ hexText input := rfl

@[simp] theorem length_hexGroup (b : UInt8) : (hexGroup b).length = 3 := rfl

@[simp] theorem length_hexText (input : Bytes) : (hexText input).length = input.length * 3 := by
  induction input with
  | nil => rfl
  | cons b input ih => simp [ih]; omega

/-- Once the groups of `done` stand in the buffer, the loop writes the groups of the rest behind
    them and leaves the zeroes of the last byte. -/
theorem hexEncodeLoop_eq (done input : Bytes) :
    hexEncodeLoop done.length input
        (hexText done ++ List.replicate (input.length * 3 + 1) 0) =
      hexText (done ++ input) ++ [0] := by
  induction input generalizing done with
  | nil => simp [hexEncodeLoop]
  | cons b input ih =>
      have hbuf : writeAt (hexText done ++ List.replicate ((b :: input).length * 3 + 1) 0)
            (done.length * 3) (hexGroup b ++ [0]) =
          hexText (done ++ [b]) ++ List.replicate (input.length * 3 + 1) 0 := by
        have hzero : List.replicate (input.length * 3 + 1) (0 : UInt8) =
            0 :: List.replicate (input.length * 3) 0 := rfl
        have hdrop : (input.length + 1) * 3 + 1 - 4 = input.length * 3 := by omega
        simp [writeAt, hexText, List.drop_append, hzero, hdrop]
      rw [hexEncodeLoop, hbuf]
      have := ih (done ++ [b])
      simpa using this

theorem hexEncode_eq (input : Bytes) : hexEncode input = hexText input ++ [0] := by
  simpa [hexEncode] using hexEncodeLoop_eq [] input

theorem length_hexEncode (input : Bytes) : (hexEncode input).length = input.length * 3 + 1 := by
  simp [hexEncode_eq]

/-- What the two digits of a byte are not: white space, a sign, a prefix letter or a NUL. -/
theorem hexDigit_spec : ∀ n < 16, isSpace (hexDigit n) = false ∧ hexDigit n ≠ 45 ∧
    hexDigit n ≠ 43 ∧ hexDigit n ≠ 120 ∧ hexDigit n ≠ 88 ∧ hexDigit n ≠ 0 ∧ hexDigit n ≠ 10 ∧
    digitValue 16 (hexDigit n) = some n := by
  decide

theorem hexGroup_plain {b c : UInt8} (h : c ∈ hexGroup b) : c ≠ 0 ∧ c ≠ 10 := by
  have hb := b.toNat_lt
  have h1 := hexDigit_spec (b.toNat / 16) (by omega)
  have h2 := hexDigit_spec (b.toNat % 16) (by omega)
  simp only [hexGroup, List.mem_cons, List.not_mem_nil, or_false] at h
  rcases h with rfl | rfl | rfl
  · exact ⟨h1.2.2.2.2.2.1, h1.2.2.2.2.2.2.1⟩
  · exact ⟨h2.2.2.2.2.2.1, h2.2.2.2.2.2.2.1⟩
  · decide

theorem hexText_plain {input : Bytes} {c : UInt8} (h : c ∈ hexText input) : c ≠ 0 ∧ c ≠ 10 := by
  obtain ⟨b, _, hc⟩ := List.mem_flatMap.mp h
  exact hexGroup_plain hc

theorem hexText_nulFree (input : Bytes) : NulFree (hexText input) := fun _ h => (hexText_plain h).1

@[simp] theorem cString_hexEncode (input : Bytes) : cString (hexEncode input) = hexText input := by
  rw [hexEncode_eq, cString_append_nul (hexText_nulFree input)]

/-! ## 3. The round trip -/

/-- One group reads back as its byte, whatever stands behind it. -/
theorem strtol_hexGroup (b : UInt8) (t : Bytes) :
    strtol 16 (hexGroup b ++ t) = some (b.toNat : Int) := by
  have hb := b.toNat_lt
  obtain ⟨hs, hm, hp, _, _, _, _, hv⟩ := hexDigit_spec (b.toNat / 16) (by omega)
  obtain ⟨_, _, _, hx, hX, _, _, hv'⟩ := hexDigit_spec (b.toNat % 16) (by omega)
  have hspace : digitValue 16 32 = none := by decide
  have hdigits : b.toNat / 16 * 16 + b.toNat % 16 = b.toNat := by omega
  have hclamp : clampLong (b.toNat : Int) = b.toNat := by
    unfold clampLong
    omega
  simp [strtol, hexGroup, skipSpace, scanSign, skipHexPrefix, scanDigits, hs, hm, hp, hx, hX, hv,
    hv', hspace, hdigits, hclamp]

theorem toUChar_toNat (b : UInt8) : toUChar (b.toNat : Int) = b := by
  have hb := b.toNat_lt
  have h : ((b.toNat : Int) % 256).toNat = b.toNat := by omega
  simp [toUChar, h]

theorem hexDecodeLoop_hexText (input t : Bytes) :
    hexDecodeLoop input.length (hexText input ++ t) = some input := by
  induction input with
  | nil => rfl
  | cons b input ih =>
      have hdrop : (hexGroup b ++ hexText input ++ t).drop 3 = hexText input ++ t := by
        simp [hexGroup]
      simp only [List.length_cons, hexDecodeLoop, hexText_cons, hdrop, ih]
      rw [List.append_assoc, strtol_hexGroup]
      simp [toUChar_toNat]

/-- Decoding `n` groups (a length from `3n + 1` to `3n + 3` asks for them) of the encoding of `n`
    bytes gives the bytes, whatever stands behind the text. -/
theorem hexDecode_hexText (input t : Bytes) (length : Int)
    (hlo : input.length * 3 + 1 ≤ length) (hhi : length ≤ input.length * 3 + 3) :
    hexDecode (hexText input ++ t) length = some input := by
  have hreq : ((length - 1).tdiv 3).toNat = input.length := by
    rw [Int.tdiv_eq_ediv_of_nonneg (by omega)]
    omega
  rw [hexDecode, hreq, hexDecodeLoop_hexText]

end Domoio
