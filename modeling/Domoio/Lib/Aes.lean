import Domoio.Lib.Cbc

/-
  File:      Domoio/Lib/Aes.lean
  Subject:   AES with keys of 128 bits, and its inverse.

  The state is four columns of four bytes. Each of the steps of a round is undone by its inverse step,
  and so the cipher by the inverse cipher (`decrypt_encrypt`). MixColumns is undone by linearity of
  the doubling alone (`invMixColumn_mixColumn`), SubBytes by looking at every byte.
-/

namespace Lib

namespace Aes

/-! ## 1. Bytes -/

/-- Doubling in the field of the bytes. -/
def xtime (b : UInt8) : UInt8 := (b <<< 1) ^^^ ((b >>> 7) * 0x1b)

/-- The substitution of the bytes, in their order. -/
def sboxTable : List Nat :=
  [0x63, 0x7c, 0x77, 0x7b, 0xf2, 0x6b, 0x6f, 0xc5, 0x30, 0x01, 0x67, 0x2b, 0xfe, 0xd7, 0xab, 0x76,
   0xca, 0x82, 0xc9, 0x7d, 0xfa, 0x59, 0x47, 0xf0, 0xad, 0xd4, 0xa2, 0xaf, 0x9c, 0xa4, 0x72, 0xc0,
   0xb7, 0xfd, 0x93, 0x26, 0x36, 0x3f, 0xf7, 0xcc, 0x34, 0xa5, 0xe5, 0xf1, 0x71, 0xd8, 0x31, 0x15,
   0x04, 0xc7, 0x23, 0xc3, 0x18, 0x96, 0x05, 0x9a, 0x07, 0x12, 0x80, 0xe2, 0xeb, 0x27, 0xb2, 0x75,
   0x09, 0x83, 0x2c, 0x1a, 0x1b, 0x6e, 0x5a, 0xa0, 0x52, 0x3b, 0xd6, 0xb3, 0x29, 0xe3, 0x2f, 0x84,
   0x53, 0xd1, 0x00, 0xed, 0x20, 0xfc, 0xb1, 0x5b, 0x6a, 0xcb, 0xbe, 0x39, 0x4a, 0x4c, 0x58, 0xcf,
   0xd0, 0xef, 0xaa, 0xfb, 0x43, 0x4d, 0x33, 0x85, 0x45, 0xf9, 0x02, 0x7f, 0x50, 0x3c, 0x9f, 0xa8,
   0x51, 0xa3, 0x40, 0x8f, 0x92, 0x9d, 0x38, 0xf5, 0xbc, 0xb6, 0xda, 0x21, 0x10, 0xff, 0xf3, 0xd2,
   0xcd, 0x0c, 0x13, 0xec, 0x5f, 0x97, 0x44, 0x17, 0xc4, 0xa7, 0x7e, 0x3d, 0x64, 0x5d, 0x19, 0x73,
   0x60, 0x81, 0x4f, 0xdc, 0x22, 0x2a, 0x90, 0x88, 0x46, 0xee, 0xb8, 0x14, 0xde, 0x5e, 0x0b, 0xdb,
   0xe0, 0x32, 0x3a, 0x0a, 0x49, 0x06, 0x24, 0x5c, 0xc2, 0xd3, 0xac, 0x62, 0x91, 0x95, 0xe4, 0x79,
   0xe7, 0xc8, 0x37, 0x6d, 0x8d, 0xd5, 0x4e, 0xa9, 0x6c, 0x56, 0xf4, 0xea, 0x65, 0x7a, 0xae, 0x08,
   0xba, 0x78, 0x25, 0x2e, 0x1c, 0xa6, 0xb4, 0xc6, 0xe8, 0xdd, 0x74, 0x1f, 0x4b, 0xbd, 0x8b, 0x8a,
   0x70, 0x3e, 0xb5, 0x66, 0x48, 0x03, 0xf6, 0x0e, 0x61, 0x35, 0x57, 0xb9, 0x86, 0xc1, 0x1d, 0x9e,
   0xe1, 0xf8, 0x98, 0x11, 0x69, 0xd9, 0x8e, 0x94, 0x9b, 0x1e, 0x87, 0xe9, 0xce, 0x55, 0x28, 0xdf,
   0x8c, 0xa1, 0x89, 0x0d, 0xbf, 0xe6, 0x42, 0x68, 0x41, 0x99, 0x2d, 0x0f, 0xb0, 0x54, 0xbb, 0x16]

def sbox (b : UInt8) : UInt8 := UInt8.ofNat (sboxTable.getD b.toNat 0)

/-- Where the substitution has the byte. -/
def invSbox (b : UInt8) : UInt8 := UInt8.ofNat (sboxTable.idxOf b.toNat)

/-- The bytes of a table as the bits of a number. -/
theorem testBit_foldl (l : List Nat) (m i : Nat) :
    (l.foldl (fun acc x => acc ||| 1 <<< x) m).testBit i = (m.testBit i || decide (i ∈ l)) := by
  induction l generalizing m with
  | nil => simp
  | cons x l ih =>
      have hbit : (1 <<< x).testBit i = decide (i = x) := by
        rw [Nat.one_shiftLeft, Nat.testBit_two_pow]
        simp [eq_comm]
      rw [List.foldl_cons, ih, Nat.testBit_or, hbit, Bool.or_assoc]
      simp

theorem sboxTable_full : sboxTable.foldl (fun acc x => acc ||| 1 <<< x) 0 = 2 ^ 256 - 1 := by
  decide +kernel

theorem length_sboxTable : sboxTable.length = 256 := by decide +kernel

/-- Every byte is in the table, and as it has 256 entries, once. -/
theorem sboxTable_perm : (List.range 256).Perm sboxTable := by
  refine (List.subperm_of_subset List.nodup_range fun i hi => ?_).perm_of_length_le
    (by rw [length_sboxTable, List.length_range])
  have hbit := testBit_foldl sboxTable 0 i
  rw [sboxTable_full, Nat.testBit_two_pow_sub_one, decide_eq_true (List.mem_range.mp hi),
    Nat.zero_testBit, Bool.false_or] at hbit
  exact of_decide_eq_true hbit.symm

theorem invSbox_sbox (b : UInt8) : invSbox (sbox b) = b := by
  have hb : b.toNat < sboxTable.length := length_sboxTable ▸ b.toNat_lt
  have hbyte : sboxTable[b.toNat] < 256 :=
    List.mem_range.mp (sboxTable_perm.mem_iff.mpr (List.getElem_mem hb))
  have hnodup : sboxTable.Nodup := sboxTable_perm.nodup_iff.mp List.nodup_range
  rw [invSbox, sbox, List.getD_eq_getElem _ _ hb, UInt8.toNat_ofNat', Nat.mod_eq_of_lt hbyte,
    hnodup.idxOf_getElem b.toNat hb, UInt8.ofNat_toNat]

/-- The highest bit decides whether doubling reduces. -/
theorem shiftRight_seven (b : UInt8) : b >>> 7 = 0 ∨ b >>> 7 = 1 := by
  have hb := b.toNat_lt
  have hval : (b >>> 7).toNat = b.toNat / 2 ^ 7 := by
    rw [UInt8.toNat_shiftRight, Nat.shiftRight_eq_div_pow]
    rfl
  rcases Nat.lt_or_ge b.toNat (2 ^ 7) with hlow | hhigh
  · refine .inl (UInt8.toNat_inj.mp ?_)
    rw [hval, Nat.div_eq_of_lt hlow]
    rfl
  · refine .inr (UInt8.toNat_inj.mp ?_)
    have hone : (1 : UInt8).toNat = 1 := rfl
    rw [hval, hone]
    omega

theorem xtime_xor (a b : UInt8) : xtime (a ^^^ b) = xtime a ^^^ xtime b := by
  have hbits : ((a >>> (7 : UInt8)) ^^^ (b >>> (7 : UInt8))) * 0x1b =
      ((a >>> (7 : UInt8)) * 0x1b) ^^^ ((b >>> (7 : UInt8)) * 0x1b) := by
    rcases shiftRight_seven a with ha | ha <;> rcases shiftRight_seven b with hb | hb <;>
      rw [ha, hb] <;> rfl
  rw [xtime, UInt8.shiftLeft_xor, UInt8.shiftRight_xor, hbits, xtime, xtime]
  ac_rfl

/-! ## 2. The steps of a round -/

structure Column where
  b0 : UInt8
  b1 : UInt8
  b2 : UInt8
  b3 : UInt8
  deriving DecidableEq

structure State where
  c0 : Column
  c1 : Column
  c2 : Column
  c3 : Column
  deriving DecidableEq

namespace Column

def map (f : UInt8 → UInt8) (c : Column) : Column := ⟨f c.b0, f c.b1, f c.b2, f c.b3⟩

def xor (c d : Column) : Column := ⟨c.b0 ^^^ d.b0, c.b1 ^^^ d.b1, c.b2 ^^^ d.b2, c.b3 ^^^ d.b3⟩

/-- Each byte twice, and the bytes below it three times, once and once. -/
def mix (c : Column) : Column :=
  let row (w x y z : UInt8) := xtime w ^^^ (xtime x ^^^ x) ^^^ y ^^^ z
  ⟨row c.b0 c.b1 c.b2 c.b3, row c.b1 c.b2 c.b3 c.b0, row c.b2 c.b3 c.b0 c.b1, row c.b3 c.b0 c.b1 c.b2⟩

theorem xor_xor_self (c d : Column) : (c.xor d).xor d = c := by
  simp [xor]

/-- Mixing twice: each byte five times, and the byte opposite four times. -/
def mixTwice (c : Column) : Column :=
  let row (w y : UInt8) := w ^^^ (xtime (xtime w) ^^^ xtime (xtime y))
  ⟨row c.b0 c.b2, row c.b1 c.b3, row c.b2 c.b0, row c.b3 c.b1⟩

section Cancel

variable (a b d : UInt8)

theorem xor_left_comm : a ^^^ (b ^^^ d) = b ^^^ (a ^^^ d) := by
  rw [← UInt8.xor_assoc, UInt8.xor_comm a b, UInt8.xor_assoc]

theorem xor_cancel : a ^^^ (a ^^^ b) = b := by
  rw [← UInt8.xor_assoc, UInt8.xor_self, UInt8.zero_xor]

end Cancel

theorem mix_mix (c : Column) : c.mix.mix = c.mixTwice := by
  obtain ⟨w, x, y, z⟩ := c
  simp only [mix, mixTwice, xtime_xor, mk.injEq]
  refine ⟨?_, ?_, ?_, ?_⟩ <;>
    simp only [UInt8.xor_assoc, UInt8.xor_comm, xor_left_comm, xor_cancel, UInt8.xor_self,
      UInt8.zero_xor]

theorem mixTwice_mixTwice (c : Column) : c.mixTwice.mixTwice = c := by
  obtain ⟨w, x, y, z⟩ := c
  simp only [mixTwice, xtime_xor, mk.injEq]
  refine ⟨?_, ?_, ?_, ?_⟩ <;>
    simp only [UInt8.xor_assoc, UInt8.xor_comm, xor_left_comm, UInt8.xor_self, UInt8.xor_zero]

/-- Mixing is undone by mixing three times more. -/
def invMix (c : Column) : Column := c.mixTwice.mix

theorem invMix_mix (c : Column) : c.mix.invMix = c := by
  rw [invMix, ← mix_mix c.mix, mix_mix c.mix.mix, mix_mix, mixTwice_mixTwice]

theorem map_invSbox (c : Column) : (c.map sbox).map invSbox = c := by
  simp [map, invSbox_sbox]

end Column

namespace State

def map (f : Column → Column) (s : State) : State := ⟨f s.c0, f s.c1, f s.c2, f s.c3⟩

def addRoundKey (k s : State) : State := ⟨s.c0.xor k.c0, s.c1.xor k.c1, s.c2.xor k.c2, s.c3.xor k.c3⟩

def subBytes (s : State) : State := s.map (·.map sbox)

def invSubBytes (s : State) : State := s.map (·.map invSbox)

/-- The rows are rotated to the left, each by its number. -/
def shiftRows (s : State) : State :=
  ⟨⟨s.c0.b0, s.c1.b1, s.c2.b2, s.c3.b3⟩, ⟨s.c1.b0, s.c2.b1, s.c3.b2, s.c0.b3⟩,
    ⟨s.c2.b0, s.c3.b1, s.c0.b2, s.c1.b3⟩, ⟨s.c3.b0, s.c0.b1, s.c1.b2, s.c2.b3⟩⟩

def invShiftRows (s : State) : State :=
  ⟨⟨s.c0.b0, s.c3.b1, s.c2.b2, s.c1.b3⟩, ⟨s.c1.b0, s.c0.b1, s.c3.b2, s.c2.b3⟩,
    ⟨s.c2.b0, s.c1.b1, s.c0.b2, s.c3.b3⟩, ⟨s.c3.b0, s.c2.b1, s.c1.b2, s.c0.b3⟩⟩

def mixColumns (s : State) : State := s.map Column.mix

def invMixColumns (s : State) : State := s.map Column.invMix

theorem addRoundKey_addRoundKey (k s : State) : addRoundKey k (addRoundKey k s) = s := by
  simp [addRoundKey, Column.xor_xor_self]

theorem invSubBytes_subBytes (s : State) : s.subBytes.invSubBytes = s := by
  simp [subBytes, invSubBytes, map, Column.map_invSbox]

theorem invShiftRows_shiftRows (s : State) : s.shiftRows.invShiftRows = s := rfl

theorem invMixColumns_mixColumns (s : State) : s.mixColumns.invMixColumns = s := by
  simp [mixColumns, invMixColumns, map, Column.invMix_mix]

/-! ## 3. The cipher -/

def round (s k : State) : State := addRoundKey k s.subBytes.shiftRows.mixColumns

def invRound (s k : State) : State := (addRoundKey k s).invMixColumns.invShiftRows.invSubBytes

/-- The last round does not mix. -/
def lastRound (s k : State) : State := addRoundKey k s.subBytes.shiftRows

def invLastRound (s k : State) : State := (addRoundKey k s).invShiftRows.invSubBytes

theorem invRound_round (s k : State) : (s.round k).invRound k = s := by
  rw [round, invRound, addRoundKey_addRoundKey, invMixColumns_mixColumns, invShiftRows_shiftRows,
    invSubBytes_subBytes]

theorem invLastRound_lastRound (s k : State) : (s.lastRound k).invLastRound k = s := by
  rw [lastRound, invLastRound, addRoundKey_addRoundKey, invShiftRows_shiftRows, invSubBytes_subBytes]

/-- Rounds are undone from the last to the first. -/
theorem foldr_invRound (s : State) (ks : List State) :
    ks.foldr (fun k s => s.invRound k) (ks.foldl round s) = s := by
  induction ks generalizing s with
  | nil => rfl
  | cons k ks ih => rw [List.foldl_cons, List.foldr_cons, ih, invRound_round]

end State

/-- The round key behind `k`. -/
def nextKey (k : State) (rcon : UInt8) : State :=
  let temp : Column := ⟨sbox k.c3.b1 ^^^ rcon, sbox k.c3.b2, sbox k.c3.b3, sbox k.c3.b0⟩
  let c0 := k.c0.xor temp
  let c1 := k.c1.xor c0
  let c2 := k.c2.xor c1
  ⟨c0, c1, c2, k.c3.xor c2⟩

/-- The keys of the rounds that mix, and of the last one. -/
def roundKeys (key : State) : List State × State :=
  let ks := [0x01, 0x02, 0x04, 0x08, 0x10, 0x20, 0x40, 0x80, 0x1b].foldl
    (fun ks rcon => ks ++ [nextKey (ks.getLastD key) rcon]) []
  (ks, nextKey (ks.getLastD key) 0x36)

def cipher (key s : State) : State :=
  let (ks, k) := roundKeys key
  (ks.foldl State.round (State.addRoundKey key s)).lastRound k

def invCipher (key s : State) : State :=
  let (ks, k) := roundKeys key
  State.addRoundKey key (ks.foldr (fun k s => s.invRound k) (s.invLastRound k))

theorem invCipher_cipher (key s : State) : invCipher key (cipher key s) = s := by
  rw [cipher, invCipher]
  dsimp only
  rw [State.invLastRound_lastRound, State.foldr_invRound, State.addRoundKey_addRoundKey]

/-! ## 4. Blocks -/

def toState (b : Cbc.Block 16) : State :=
  ⟨⟨b[0], b[1], b[2], b[3]⟩, ⟨b[4], b[5], b[6], b[7]⟩, ⟨b[8], b[9], b[10], b[11]⟩,
    ⟨b[12], b[13], b[14], b[15]⟩⟩

def ofState (s : State) : Cbc.Block 16 :=
  #v[s.c0.b0, s.c0.b1, s.c0.b2, s.c0.b3, s.c1.b0, s.c1.b1, s.c1.b2, s.c1.b3,
    s.c2.b0, s.c2.b1, s.c2.b2, s.c2.b3, s.c3.b0, s.c3.b1, s.c3.b2, s.c3.b3]

theorem toState_ofState (s : State) : toState (ofState s) = s := rfl

theorem ofState_toState (b : Cbc.Block 16) : ofState (toState b) = b := by
  ext i hi
  interval_cases i <;> rfl

/-- AES under a key. -/
def blockCipher (key : Cbc.Block 16) : Cbc.BlockCipher 16 where
  encrypt b := ofState (cipher (toState key) (toState b))
  decrypt b := ofState (invCipher (toState key) (toState b))
  decrypt_encrypt b := by rw [toState_ofState, invCipher_cipher, ofState_toState]

/-- The example of the standard. -/
example : (blockCipher (Vector.ofFn fun i => UInt8.ofNat i)).encrypt
      (Vector.ofFn fun i => UInt8.ofNat (17 * i)) =
    #v[0x69, 0xc4, 0xe0, 0xd8, 0x6a, 0x7b, 0x04, 0x30, 0xd8, 0xcd, 0xb7, 0x80, 0x70, 0xb4, 0xc5, 0x5a] := by
  decide +kernel

end Aes

end Lib
