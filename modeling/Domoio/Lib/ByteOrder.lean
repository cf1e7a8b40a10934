import Domoio.Lib.CText

/-
  File:      Domoio/Lib/ByteOrder.lean
  Subject:   The value of bytes in network order.

  `bigEndian_injective`: bytes of one length are determined by their value; `littleEndianBytes` are the
  four bytes of a value the other way round (`bigEndian_reverse_littleEndianBytes`), so reading them in
  network order gives the value back exactly where they are a palindrome
  (`bigEndian_littleEndianBytes_iff`). `bigEndianBytes` writes a value in a fixed number of bytes.
-/

namespace Lib

/-- The value of bytes, the most significant first. -/
def bigEndian (b : Bytes) : Nat := b.foldl (fun n c => n * 256 + c.toNat) 0

/-- Four bytes of a value, the least significant first. -/
def littleEndianBytes (v : Nat) : Bytes :=
  [UInt8.ofNat (v % 256), UInt8.ofNat (v / 256 % 256), UInt8.ofNat (v / 65536 % 256),
    UInt8.ofNat (v / 16777216)]

theorem bigEndian_eq_ofDigits (b : Bytes) :
    bigEndian b = Nat.ofDigits 256 (b.reverse.map UInt8.toNat) := by
  induction b using List.reverseRecOn with
  | nil => rfl
  | append_singleton b c ih =>
      rw [bigEndian] at ih ⊢
      rw [List.foldl_append, ih, List.reverse_append, List.reverse_singleton, List.singleton_append,
        List.map_cons, Nat.ofDigits_cons]
      simp only [List.foldl_cons, List.foldl_nil]
      omega

theorem byte_lt {b : Bytes} : ∀ n ∈ b.map UInt8.toNat, n < 256 := by
  intro n hn
  obtain ⟨c, -, rfl⟩ := List.mem_map.mp hn
  exact c.toNat_lt

theorem bigEndian_injective {b b' : Bytes} (hlength : b.length = b'.length)
    (h : bigEndian b = bigEndian b') : b = b' := by
  rw [bigEndian_eq_ofDigits, bigEndian_eq_ofDigits] at h
  have hmaps := Nat.ofDigits_inj_of_len_eq (by decide) (by simp [hlength]) byte_lt byte_lt h
  have hreverse : b.reverse = b'.reverse :=
    List.map_injective_iff.mpr (fun _ _ hc => UInt8.toNat_inj.mp hc) hmaps
  exact List.reverse_injective hreverse

theorem bigEndian_lt (b : Bytes) : bigEndian b < 256 ^ b.length := by
  rw [bigEndian_eq_ofDigits]
  have h := Nat.ofDigits_lt_base_pow_length (by decide : 1 < 256) (byte_lt (b := b.reverse))
  simpa using h

/-- The bytes the other way round have the value. -/
theorem bigEndian_reverse_littleEndianBytes {v : Nat} (hv : v < 2 ^ 32) :
    bigEndian (littleEndianBytes v).reverse = v := by
  simp only [littleEndianBytes, List.reverse_cons, List.reverse_nil, List.nil_append,
    List.cons_append, bigEndian, List.foldl_cons, List.foldl_nil, UInt8.toNat_ofNat']
  omega

theorem bigEndian_littleEndianBytes_iff {v : Nat} (hv : v < 2 ^ 32) :
    bigEndian (littleEndianBytes v) = v ↔
      (littleEndianBytes v).reverse = littleEndianBytes v := by
  constructor
  · intro h
    refine bigEndian_injective (by simp) ?_
    rw [bigEndian_reverse_littleEndianBytes hv, h]
  · intro h
    rw [← h]
    exact bigEndian_reverse_littleEndianBytes hv

/-- The last `k` bytes of a value, the most significant first. -/
def bigEndianBytes : Nat → Nat → Bytes
  | 0, _ => []
  | k + 1, v => bigEndianBytes k (v / 256) ++ [UInt8.ofNat (v % 256)]

@[simp] theorem length_bigEndianBytes (k v : Nat) : (bigEndianBytes k v).length = k := by
  induction k generalizing v with
  | zero => rfl
  | succ k ih => simp [bigEndianBytes, ih]

theorem bigEndian_append (b c : Bytes) :
    bigEndian (b ++ c) = bigEndian b * 256 ^ c.length + bigEndian c := by
  rw [bigEndian_eq_ofDigits, bigEndian_eq_ofDigits b, bigEndian_eq_ofDigits c, List.reverse_append,
    List.map_append, Nat.ofDigits_append]
  simp only [List.length_map, List.length_reverse]
  ring

/-- A value is read back as far as the bytes hold it. -/
theorem bigEndian_bigEndianBytes {k v : Nat} (hv : v < 256 ^ k) : bigEndian (bigEndianBytes k v) = v := by
  induction k generalizing v with
  | zero =>
      have hzero : v = 0 := by simpa using hv
      rw [hzero]
      rfl
  | succ k ih =>
      have hrest : v / 256 < 256 ^ k := Nat.div_lt_of_lt_mul (by rwa [pow_succ, mul_comm] at hv)
      have hlast : bigEndian [UInt8.ofNat (v % 256)] = v % 256 := by
        simp [bigEndian]
      rw [bigEndianBytes, bigEndian_append, ih hrest, hlast, List.length_singleton, pow_one]
      omega

/-- The four bytes the other way round are those in network order. -/
theorem reverse_littleEndianBytes {v : Nat} (hv : v < 2 ^ 32) :
    (littleEndianBytes v).reverse = bigEndianBytes 4 v := by
  refine bigEndian_injective (by simp [littleEndianBytes]) ?_
  rw [bigEndian_reverse_littleEndianBytes hv, bigEndian_bigEndianBytes (by omega)]

theorem bigEndianBytes_bigEndian {k : Nat} {b : Bytes} (hlength : b.length = k) :
    bigEndianBytes k (bigEndian b) = b := by
  subst hlength
  exact bigEndian_injective (length_bigEndianBytes _ _) (bigEndian_bigEndianBytes (bigEndian_lt b))

end Lib
