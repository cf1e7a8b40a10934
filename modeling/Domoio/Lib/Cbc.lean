import Mathlib

/-
  File:      Domoio/Lib/Cbc.lean
  Subject:   Cipher block chaining with padding, over any invertible block cipher.

  * `encryptBlocks`, `decryptBlocks` -- the chaining, and that one undoes the other;
  * `pad`, `unpad` -- as many bytes as are missing to a whole block, each of them that number, and a
    whole block of them where none is missing;
  * `Stream` -- text given piece by piece: whole blocks are passed on, the rest waits. Decryption keeps
    the last block back, since it may be the one with the padding (`decrypt_encrypt`).
-/

namespace Lib

namespace Cbc

abbrev Block (n : Nat) := Vector UInt8 n

/-- A block cipher under one key. -/
structure BlockCipher (n : Nat) where
  encrypt : Block n → Block n
  decrypt : Block n → Block n
  decrypt_encrypt : ∀ b, decrypt (encrypt b) = b

variable {n : Nat}

def xor (a b : Block n) : Block n := Vector.zipWith (· ^^^ ·) a b

theorem xor_xor_self (a b : Block n) : xor (xor a b) b = a := by
  ext i hi
  simp [xor]

/-! ## 1. Chaining -/

def encryptBlocks (c : BlockCipher n) : Block n → List (Block n) → List (Block n)
  | _, [] => []
  | chain, b :: bs =>
      let e := c.encrypt (xor b chain)
      e :: encryptBlocks c e bs

def decryptBlocks (c : BlockCipher n) : Block n → List (Block n) → List (Block n)
  | _, [] => []
  | chain, e :: es => xor (c.decrypt e) chain :: decryptBlocks c e es

@[simp] theorem length_encryptBlocks (c : BlockCipher n) (chain : Block n) (bs : List (Block n)) :
    (encryptBlocks c chain bs).length = bs.length := by
  induction bs generalizing chain with
  | nil => rfl
  | cons b bs ih => exact congrArg Nat.succ (ih _)

theorem decryptBlocks_encryptBlocks (c : BlockCipher n) (chain : Block n) (bs : List (Block n)) :
    decryptBlocks c chain (encryptBlocks c chain bs) = bs := by
  induction bs generalizing chain with
  | nil => rfl
  | cons b bs ih =>
      show xor (c.decrypt (c.encrypt (xor b chain))) chain :: decryptBlocks c _ _ = b :: bs
      rw [c.decrypt_encrypt, xor_xor_self, ih]

/-- What the next block is chained to. -/
def last (chain : Block n) (bs : List (Block n)) : Block n := bs.getLast?.getD chain

/-! ## 2. Blocks and bytes -/

/-- The first block of a text. -/
def firstBlock (n : Nat) (b : List UInt8) : Block n := Vector.ofFn fun i => b.getD i 0

/-- The first `k` blocks of a text. -/
def toBlocks (n : Nat) : Nat → List UInt8 → List (Block n)
  | 0, _ => []
  | k + 1, b => firstBlock n b :: toBlocks n k (b.drop n)

def bytes (bs : List (Block n)) : List UInt8 := bs.flatMap Vector.toList

@[simp] theorem bytes_nil : bytes ([] : List (Block n)) = [] := rfl

@[simp] theorem bytes_cons (b : Block n) (bs : List (Block n)) :
    bytes (b :: bs) = b.toList ++ bytes bs := rfl

@[simp] theorem bytes_append (bs bs' : List (Block n)) : bytes (bs ++ bs') = bytes bs ++ bytes bs' :=
  List.flatMap_append

@[simp] theorem length_bytes (bs : List (Block n)) : (bytes bs).length = bs.length * n := by
  induction bs with
  | nil => simp
  | cons b bs ih => simp [ih, Nat.add_one_mul, Nat.add_comm]

@[simp] theorem length_toBlocks (k : Nat) (b : List UInt8) : (toBlocks n k b).length = k := by
  induction k generalizing b with
  | zero => rfl
  | succ k ih => exact congrArg Nat.succ (ih _)

theorem toList_firstBlock {b : List UInt8} (h : n ≤ b.length) : (firstBlock n b).toList = b.take n := by
  apply List.ext_getElem
  · simp [h]
  · intro i h1 h2
    have hi : i < b.length := by
      rw [List.length_take] at h2
      omega
    simp [firstBlock, hi]

theorem firstBlock_toList (b : Block n) (rest : List UInt8) : firstBlock n (b.toList ++ rest) = b := by
  ext i hi
  simp [firstBlock, List.getElem?_append_left]

/-- The blocks of a text are its bytes. -/
theorem bytes_toBlocks {k : Nat} {b : List UInt8} (h : k * n ≤ b.length) :
    bytes (toBlocks n k b) = b.take (k * n) := by
  induction k generalizing b with
  | zero => simp [toBlocks]
  | succ k ih =>
      rw [Nat.add_one_mul] at h
      have hrest : k * n ≤ (b.drop n).length := by
        rw [List.length_drop]
        omega
      show (firstBlock n b).toList ++ bytes (toBlocks n k (b.drop n)) = _
      rw [toList_firstBlock (by omega), ih hrest, Nat.add_one_mul, Nat.add_comm, List.take_add]

/-- Blocks that have been written out are read back. -/
theorem toBlocks_bytes (bs : List (Block n)) (rest : List UInt8) :
    toBlocks n bs.length (bytes bs ++ rest) = bs := by
  induction bs generalizing rest with
  | nil => rfl
  | cons b bs ih =>
      have hdrop : (b.toList ++ (bytes bs ++ rest)).drop n = bytes bs ++ rest :=
        List.drop_left' b.length_toList
      rw [bytes_cons, List.append_assoc, List.length_cons, toBlocks, firstBlock_toList, hdrop, ih]

/-! ## 3. Padding -/

/-- The padding of a text, on its last incomplete block. -/
def pad (n : Nat) (b : List UInt8) : List UInt8 :=
  b ++ List.replicate (n - b.length) (UInt8.ofNat (n - b.length))

/-- A padded block without its padding, where it is one. -/
def unpad (b : List UInt8) : Option (List UInt8) :=
  match b.getLast? with
  | none => none
  | some v =>
      let k := v.toNat
      if 0 < k ∧ k ≤ b.length ∧ b.drop (b.length - k) = List.replicate k v then
        some (b.take (b.length - k))
      else none

theorem length_pad {b : List UInt8} (h : b.length < n) : (pad n b).length = n := by
  rw [pad, List.length_append, List.length_replicate]
  omega

theorem unpad_pad {b : List UInt8} (h : b.length < n) (hn : n < 256) : unpad (pad n b) = some b := by
  have hk : 0 < n - b.length := by omega
  have hv : (UInt8.ofNat (n - b.length)).toNat = n - b.length := by
    rw [UInt8.toNat_ofNat', Nat.mod_eq_of_lt (by omega)]
  have hlast : (pad n b).getLast? = some (UInt8.ofNat (n - b.length)) := by
    rw [pad, List.getLast?_append, List.getLast?_replicate, if_neg hk.ne', Option.some_or]
  have hfront : (pad n b).length - (n - b.length) = b.length := by
    rw [length_pad h]
    omega
  rw [unpad, hlast]
  dsimp only
  have hle : n - b.length ≤ (pad n b).length := by
    rw [length_pad h]
    omega
  have htail : (pad n b).drop b.length = List.replicate (n - b.length) (UInt8.ofNat (n - b.length)) := by
    rw [pad, List.drop_left]
  rw [hv, hfront, if_pos ⟨hk, hle, htail⟩, pad, List.take_left]

/-! ## 4. Text in pieces -/

/-- What is between two pieces: the block the next one is chained to, and the bytes that wait. -/
structure Stream (n : Nat) where
  chain : Block n
  buffer : List UInt8

/-- Encryption of a piece, all whole blocks of it. -/
def encryptPiece (c : BlockCipher n) (s : Stream n) (b : List UInt8) : Stream n × List UInt8 :=
  let data := s.buffer ++ b
  let k := data.length / n
  let es := encryptBlocks c s.chain (toBlocks n k data)
  (⟨last s.chain es, data.drop (k * n)⟩, bytes es)

/-- The padded end. -/
def encryptEnd (c : BlockCipher n) (s : Stream n) : List UInt8 :=
  (c.encrypt (xor (firstBlock n (pad n s.buffer)) s.chain)).toList

/-- Decryption of a piece, all whole blocks of it but the last. -/
def decryptPiece (c : BlockCipher n) (s : Stream n) (b : List UInt8) : Stream n × List UInt8 :=
  let data := s.buffer ++ b
  let k := (data.length - 1) / n
  let es := toBlocks n k data
  (⟨last s.chain es, data.drop (k * n)⟩, bytes (decryptBlocks c s.chain es))

/-- The end without its padding; nothing where what waits is no block or has no padding. -/
def decryptEnd (c : BlockCipher n) (s : Stream n) : Option (List UInt8) :=
  if s.buffer.length = n then unpad (xor (c.decrypt (firstBlock n s.buffer)) s.chain).toList else none

/-- A whole text. -/
def encrypt (c : BlockCipher n) (iv : Block n) (b : List UInt8) : List UInt8 :=
  let r := encryptPiece c ⟨iv, []⟩ b
  r.2 ++ encryptEnd c r.1

def decrypt (c : BlockCipher n) (iv : Block n) (b : List UInt8) : Option (List UInt8) :=
  let r := decryptPiece c ⟨iv, []⟩ b
  (decryptEnd c r.1).map (r.2 ++ ·)

section RoundTrip

variable (c : BlockCipher n) (iv : Block n) (b : List UInt8)

/-- The whole blocks of a text, encrypted. -/
def wholeBlocks : List (Block n) := encryptBlocks c iv (toBlocks n (b.length / n) b)

/-- The block behind them, with the padding. -/
def endBlock : Block n :=
  c.encrypt (xor (firstBlock n (pad n (b.drop (b.length / n * n)))) (last iv (wholeBlocks c iv b)))

theorem encrypt_eq : encrypt c iv b = bytes (wholeBlocks c iv b) ++ (endBlock c iv b).toList := rfl

theorem length_encrypt : (encrypt c iv b).length = n * (b.length / n + 1) := by
  rw [encrypt_eq, List.length_append, length_bytes, Vector.length_toList, wholeBlocks,
    length_encryptBlocks, length_toBlocks, Nat.mul_add_one, Nat.mul_comm]

variable {b}

theorem length_drop_whole (h0 : 0 < n) : (b.drop (b.length / n * n)).length < n := by
  have hmod := Nat.mod_lt b.length h0
  have hdiv := Nat.div_add_mod' b.length n
  rw [List.length_drop]
  omega

/-- Decrypting all but the last block of an encrypted text. -/
theorem decryptPiece_encrypt (h0 : 0 < n) : decryptPiece c ⟨iv, []⟩ (encrypt c iv b) =
    (⟨last iv (wholeBlocks c iv b), (endBlock c iv b).toList⟩, b.take (b.length / n * n)) := by
  have hcount : (wholeBlocks c iv b).length = b.length / n := by
    rw [wholeBlocks, length_encryptBlocks, length_toBlocks]
  have hk : ((encrypt c iv b).length - 1) / n = b.length / n := by
    rw [length_encrypt, Nat.mul_add_one]
    have hlow : n * (b.length / n) + n - 1 = n * (b.length / n) + (n - 1) := by omega
    have hzero : (n - 1) / n = 0 := Nat.div_eq_of_lt (by omega)
    rw [hlow, Nat.mul_add_div h0, hzero, Nat.add_zero]
  have hblocks : toBlocks n (b.length / n) (encrypt c iv b) = wholeBlocks c iv b := by
    rw [← hcount, encrypt_eq, toBlocks_bytes]
  have hrest : (encrypt c iv b).drop (b.length / n * n) = (endBlock c iv b).toList := by
    rw [encrypt_eq, List.drop_left' (by rw [length_bytes, hcount])]
  have hplain : bytes (decryptBlocks c iv (wholeBlocks c iv b)) = b.take (b.length / n * n) := by
    rw [wholeBlocks, decryptBlocks_encryptBlocks, bytes_toBlocks (Nat.div_mul_le_self _ _)]
  unfold decryptPiece
  simp only [List.nil_append, hk, hblocks, hrest, hplain]

/-- Decryption undoes encryption. -/
theorem decrypt_encrypt (h0 : 0 < n) (hn : n < 256) : decrypt c iv (encrypt c iv b) = some b := by
  have hlen := length_drop_whole (b := b) h0
  have hpadded : (firstBlock n (pad n (b.drop (b.length / n * n)))).toList =
      pad n (b.drop (b.length / n * n)) := by
    rw [toList_firstBlock (length_pad hlen).ge, List.take_of_length_le (length_pad hlen).le]
  have hend : firstBlock n (endBlock c iv b).toList = endBlock c iv b := by
    simpa using firstBlock_toList (endBlock c iv b) []
  rw [decrypt, decryptPiece_encrypt c iv h0]
  simp only [decryptEnd, Vector.length_toList, if_true]
  rw [hend, endBlock, c.decrypt_encrypt, xor_xor_self, hpadded, unpad_pad hlen hn, Option.map_some,
    List.take_append_drop]

end RoundTrip

end Cbc

end Lib
