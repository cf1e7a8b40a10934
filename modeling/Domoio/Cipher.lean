import Domoio.Lib.Aes
import Domoio.Lib.Probe
import Domoio.Lib.CText

/-
  File:      Domoio/Cipher.lean
  Subject:   The block cipher of two peers (src/crypto/aes.cc, block_cipher.cc).

  libcrypto is a parameter, with its functions for AES-128-CBC and what their manual says of them
  (`Evp`); `aesEvp` is such a library. The constructor hands the password itself to the cipher, which
  reads 16 bytes of it, whatever its length.

  `agree_exact`: two peers with the password understand each other, and no byte outside of it is
  read, exactly where the password fills the key with the NUL behind it, and where no length leaves the
  range of `int`.
-/

namespace Domoio

open Lib

namespace crypto

/-- `AES_BLOCK_SIZE`, as crypt.h has it. -/
def aesBlockSize : Int := 128

/-- Keys and IVs. -/
abbrev Block := Cbc.Block 16

/-! ## 1. libcrypto -/

/-- The functions the code calls. Of `EVP_BytesToKey` the result, the size of the key it derives; that
    key is used nowhere. `EVP_DecryptFinal_ex` can find the padding wrong. -/
structure EvpFunctions where
  Ctx : Type
  bytesToKey : Block → Bytes → Nat → Int
  encryptInit : Block → Block → Ctx
  encryptReinit : Ctx → Ctx
  encryptUpdate : Ctx → Bytes → Ctx × Bytes
  encryptFinal : Ctx → Ctx × Bytes
  decryptInit : Block → Block → Ctx
  decryptReinit : Ctx → Ctx
  decryptUpdate : Ctx → Bytes → Ctx × Bytes
  decryptFinal : Ctx → Ctx × Option Bytes

namespace EvpFunctions

variable (f : EvpFunctions)

/-- What a context encrypts a text to: the output of the update and of the final call. -/
def encrypted (e : f.Ctx) (text : Bytes) : Bytes × Bytes :=
  ((f.encryptUpdate e text).2, (f.encryptFinal (f.encryptUpdate e text).1).2)

def decrypted (e : f.Ctx) (text : Bytes) : Bytes × Option Bytes :=
  ((f.decryptUpdate e text).2, (f.decryptFinal (f.decryptUpdate e text).1).2)

end EvpFunctions

/-- libcrypto: a context is set back by an init without arguments, encryption gives whole blocks with
    one for the padding, and decryption under the same key and IV gives the text back. -/
structure Evp extends EvpFunctions where
  bytesToKey_size : ∀ salt data count, bytesToKey salt data count = 16
  encryptReinit_init : ∀ key iv, encryptReinit (encryptInit key iv) = encryptInit key iv
  encryptReinit_update : ∀ e text, encryptReinit (encryptUpdate e text).1 = encryptReinit e
  encryptReinit_final : ∀ e, encryptReinit (encryptFinal e).1 = encryptReinit e
  decryptReinit_init : ∀ key iv, decryptReinit (decryptInit key iv) = decryptInit key iv
  decryptReinit_update : ∀ e text, decryptReinit (decryptUpdate e text).1 = decryptReinit e
  decryptReinit_final : ∀ e, decryptReinit (decryptFinal e).1 = decryptReinit e
  length_encrypted : ∀ key iv text,
    (toEvpFunctions.encrypted (encryptInit key iv) text).1.length +
      (toEvpFunctions.encrypted (encryptInit key iv) text).2.length = 16 * (text.length / 16 + 1)
  decrypted_encrypted : ∀ key iv text, ∃ update final,
    toEvpFunctions.decrypted (decryptInit key iv)
      ((toEvpFunctions.encrypted (encryptInit key iv) text).1 ++
        (toEvpFunctions.encrypted (encryptInit key iv) text).2) = (update, some final) ∧
      update ++ final = text

/-! ## 2. The code -/

/-- The arrays. -/
inductive Region where
  | password
  | plaintext
  | encrypted
  | ciphertext
  | cleantext
  deriving DecidableEq

/-- `a + b` on `int`, where an `int` can hold the sum. -/
def addInt (a b : Int) : Probe Region Int :=
  if (Int32.ofInt (a + b)).toInt = a + b then pure (a + b) else Probe.stop

/-- `password.c_str()`: the password, its NUL, and what is behind in memory. -/
def passwordMemory (password : Bytes) (behind : Nat → UInt8) (i : Nat) : UInt8 :=
  if i < password.length then password.getD i 0 else if i = password.length then 0 else behind i

variable (evp : Evp)

/-- `aes_init`, with its two contexts where it returns 0. A negative length is none `EVP_BytesToKey`
    can read. -/
def aesInit (keyData : Nat → UInt8) (keyDataLen : Int) (salt : Block) :
    Probe Region (Option (evp.Ctx × evp.Ctx)) :=
  if keyDataLen < 0 then Probe.stop
  else do
    let nrounds := 5
    let data ← Probe.touchAll .password keyData keyDataLen.toNat 0
    let i := evp.bytesToKey salt data nrounds
    if i ≠ 16 then return none
    let key ← Probe.touchAll .password keyData 16 0
    let key := Cbc.firstBlock 16 key
    return some (evp.encryptInit key salt, evp.decryptInit key salt)

/-- `aes_encrypt`: the context, the ciphertext and its length. -/
def aesEncrypt (e : evp.Ctx) (plaintext : Bytes) (len : Int) (ciphertext : Bytes) :
    Probe Region (evp.Ctx × Bytes × Int) := do
  let cLen ← addInt len aesBlockSize
  let _ ← addInt cLen (-1)
  let e := evp.encryptReinit e
  let input ← Probe.lookAll .plaintext plaintext len.toNat 0
  let update := evp.encryptUpdate e input
  let ciphertext ← Probe.storeAll .encrypted 0 update.2 ciphertext
  let final := evp.encryptFinal update.1
  let ciphertext ← Probe.storeAll .encrypted update.2.length final.2 ciphertext
  let total ← addInt update.2.length final.2.length
  return (final.1, ciphertext, total)

/-- `aes_decrypt`. Where the padding is wrong the final call gives nothing, and the code goes on. -/
def aesDecrypt (e : evp.Ctx) (ciphertext : Bytes) (len : Int) (plaintext : Bytes) :
    Probe Region (evp.Ctx × Bytes × Int) := do
  let e := evp.decryptReinit e
  let input ← Probe.lookAll .ciphertext ciphertext len.toNat 0
  let update := evp.decryptUpdate e input
  let plaintext ← Probe.storeAll .cleantext 0 update.2 plaintext
  let final := evp.decryptFinal update.1
  let rest := final.2.getD []
  let plaintext ← Probe.storeAll .cleantext update.2.length rest plaintext
  let total ← addInt update.2.length rest.length
  return (final.1, plaintext, total)

/-- `crypto::BlockCipher` with its contexts. -/
structure BlockCipher where
  encryptCtx : evp.Ctx
  decryptCtx : evp.Ctx
  iv : Block

namespace BlockCipher

/-- `BlockCipher::BlockCipher`. The length of the password goes to `aes_init` as an `int`. -/
def new (password : Bytes) (iv : Block) (behind : Nat → UInt8) :
    Probe Region (Option (BlockCipher evp)) := do
  let ctxs ← aesInit evp (passwordMemory password behind) (Int32.ofNat password.length).toInt iv
  return ctxs.map fun c => ⟨c.1, c.2, iv⟩

variable {evp}

/-- `BlockCipher::encrypt` of the first `length` characters and the NUL behind them: the object
    afterwards, the buffer and the reported length. -/
def encrypt (c : BlockCipher evp) (cleantext : Bytes) (length : Int) :
    Probe Region (BlockCipher evp × Bytes × Int) := do
  let length ← addInt length 1
  let size ← addInt length aesBlockSize
  let bufferSize ← addInt size (-1)
  let encrypted := List.replicate bufferSize.toNat 0
  let r ← aesEncrypt evp c.encryptCtx cleantext length encrypted
  return ({ c with encryptCtx := r.1 }, r.2)

/-- `BlockCipher::decrypt`. -/
def decrypt (c : BlockCipher evp) (ciphertext : Bytes) (length : Int) :
    Probe Region (BlockCipher evp × Bytes × Int) := do
  let cleantext := List.replicate length.toNat 0
  let r ← aesDecrypt evp c.decryptCtx ciphertext length cleantext
  return ({ c with decryptCtx := r.1 }, r.2)

end BlockCipher

/-! ## 3. What is asked of two peers -/

/-- The bytes that are given to the cipher as its key. -/
def keyBytes (password : Bytes) (behind : Nat → UInt8) : Block :=
  Cbc.firstBlock 16 ((List.range' 0 16).map (passwordMemory password behind))

/-- An object constructed from the password and the IV, in use. -/
inductive Used (password : Bytes) (iv : Block) (behind : Nat → UInt8) : BlockCipher evp → Prop where
  | new {c : BlockCipher evp} (h : (BlockCipher.new evp password iv behind).result = some (some c)) :
      Used password iv behind c
  | encrypt {c c' : BlockCipher evp} {text : Bytes} {length : Int} {r : Bytes × Int}
      (hc : Used password iv behind c) (h : (c.encrypt text length).result = some (c', r)) :
      Used password iv behind c'
  | decrypt {c c' : BlockCipher evp} {text : Bytes} {length : Int} {r : Bytes × Int}
      (hc : Used password iv behind c) (h : (c.decrypt text length).result = some (c', r)) :
      Used password iv behind c'

/-- The sizes of the arrays of `encrypt` on a plaintext of `n` bytes and its NUL. -/
def encryptSize (n : Nat) : Region → Nat
  | .plaintext => n + 1
  | .encrypted => n + 128
  | _ => 0

/-- The sizes of the arrays of `decrypt` on a buffer with a ciphertext of `length` bytes. -/
def decryptSize (buffer : Nat) (length : Int) : Region → Nat
  | .ciphertext => buffer
  | .cleantext => length.toNat
  | _ => 0

variable {evp}

/-- What `a` encrypts of `p`, `b` decrypts to `p` and its NUL; each stays in its arrays. -/
def Exchanged (p : Bytes) (a b : BlockCipher evp) : Prop :=
  ∃ a' text length b' clean,
    (a.encrypt (p ++ [0]) p.length).result = some (a', text, length) ∧
    (a.encrypt (p ++ [0]) p.length).Inside (encryptSize p.length) ∧
    (b.decrypt text length).result = some (b', clean, (p.length : Int) + 1) ∧
    (b.decrypt text length).Inside (decryptSize text.length length) ∧
    clean.take (p.length + 1) = p ++ [0]

variable (evp)

/-- Objects can be constructed from the password, from no byte but its own, and any two of them
    understand each other. -/
structure Agree (password : Bytes) (iv : Block) (p : Bytes) : Prop where
  built : ∀ behind, ∃ c, (BlockCipher.new evp password iv behind).result = some (some c)
  keyOfPassword : ∀ behind behind', keyBytes password behind = keyBytes password behind'
  inside : ∀ behind, (BlockCipher.new evp password iv behind).Inside fun _ => password.length + 1
  exchanged : ∀ behind behind' a b, Used evp password iv behind a → Used evp password iv behind' b →
    Exchanged p a b

/-! ## 4. The constructor -/

theorem addInt_eq_some {a b r : Int} :
    (addInt a b).result = some r ↔ (-2 ^ 31 ≤ a + b ∧ a + b < 2 ^ 31) ∧ r = a + b := by
  have hrange : (Int32.ofInt (a + b)).toInt = a + b ↔ -2 ^ 31 ≤ a + b ∧ a + b < 2 ^ 31 := by
    have hsize : Int32.size = 2 ^ 32 := rfl
    rw [Int32.toInt_ofInt, Int.bmod_def, hsize]
    omega
  rw [addInt, ← hrange]
  split
  · rename_i h
    exact ⟨fun hr => ⟨h, (Option.some.inj hr).symm⟩, fun hr => congrArg some hr.2.symm⟩
  · rename_i h
    exact iff_of_false nofun fun hr => h hr.1

theorem safe_addInt {size : Region → Nat} (a b : Int) : Probe.Safe size (addInt a b) := by
  unfold addInt
  split
  · exact Probe.safe_pure _
  · exact Probe.safe_stop

/-- The `int` the length of the password comes to is not negative. -/
def LengthOk (password : Bytes) : Prop := password.length % 2 ^ 32 < 2 ^ 31

theorem lengthOk_iff {password : Bytes} :
    LengthOk password ↔ ¬ (Int32.ofNat password.length).toInt < 0 := by
  have hsize : Int32.size = 2 ^ 32 := rfl
  rw [LengthOk, Int32.toInt_ofNat', Int.bmod_def, hsize]
  omega

/-- What `aes_init` reads: the data it is given the length of, and the key. -/
theorem aesInit_eq {len : Int} (h : ¬ len < 0) (keyData : Nat → UInt8) (salt : Block) :
    aesInit evp keyData len salt =
      ⟨some (some (evp.encryptInit (Cbc.firstBlock 16 ((List.range' 0 16).map keyData)) salt,
          evp.decryptInit (Cbc.firstBlock 16 ((List.range' 0 16).map keyData)) salt)),
        (List.range' 0 len.toNat).map (fun j => ⟨.password, j⟩) ++
          (List.range' 0 16).map fun j => ⟨.password, j⟩⟩ := by
  have hsize := evp.bytesToKey_size salt ((List.range' 0 len.toNat).map keyData) 5
  rw [aesInit, if_neg h, Probe.touchAll_eq, Probe.touchAll_eq]
  simp only [Probe.bind_some, hsize, ne_eq, not_true_eq_false, if_false, Probe.result_pure,
    Probe.log_pure, List.append_nil]

theorem new_eq {password : Bytes} (h : LengthOk password) (iv : Block) (behind : Nat → UInt8) :
    (BlockCipher.new evp password iv behind).result =
      some (some ⟨evp.encryptInit (keyBytes password behind) iv,
        evp.decryptInit (keyBytes password behind) iv, iv⟩) := by
  rw [BlockCipher.new, aesInit_eq evp (lengthOk_iff.mp h)]
  rfl

theorem lengthOk_of_new {password : Bytes} {iv : Block} {behind : Nat → UInt8} {c : BlockCipher evp}
    (h : (BlockCipher.new evp password iv behind).result = some (some c)) : LengthOk password := by
  by_contra hnot
  rw [lengthOk_iff, not_not] at hnot
  rw [BlockCipher.new, aesInit, if_pos hnot] at h
  cases h

/-- The constructor reads 16 bytes whatever the password is. -/
theorem new_inside_iff {password : Bytes} (h : LengthOk password) (iv : Block) (behind : Nat → UInt8) :
    (BlockCipher.new evp password iv behind).Inside (fun _ => password.length + 1) ↔
      15 ≤ password.length := by
  have hlen : (Int32.ofNat password.length).toInt.toNat ≤ password.length := by
    have hsize : Int32.size = 2 ^ 32 := rfl
    rw [Int32.toInt_ofNat', Int.bmod_def, hsize]
    omega
  rw [BlockCipher.new, aesInit_eq evp (lengthOk_iff.mp h), Probe.bind_some, Probe.Inside]
  simp only [Probe.log_pure, List.append_nil, List.forall_mem_append, List.forall_mem_map,
    List.mem_range'_1]
  constructor
  · rintro ⟨-, hkey⟩
    have hlast := hkey 15 ⟨Nat.zero_le 15, by omega⟩
    omega
  · intro hfifteen
    exact ⟨fun j hj => by omega, fun j hj => by omega⟩

/-- The key of a password that fills it. -/
theorem keyBytes_eq {password : Bytes} (h : 15 ≤ password.length) (behind behind' : Nat → UInt8) :
    keyBytes password behind = keyBytes password behind' := by
  rw [keyBytes, keyBytes]
  congr 1
  refine List.map_congr_left fun i hi => ?_
  have hi' : i ≤ password.length := by
    rw [List.mem_range'_1] at hi
    omega
  unfold passwordMemory
  split
  · rfl
  · rw [if_pos (by omega), if_pos (by omega)]

/-! ## 5. Objects in use -/

/-- An init without arguments sets the contexts back to the key and the IV. -/
structure Ready (key iv : Block) (c : BlockCipher evp) : Prop where
  encryptCtx : evp.encryptReinit c.encryptCtx = evp.encryptInit key iv
  decryptCtx : evp.decryptReinit c.decryptCtx = evp.decryptInit key iv

theorem aesEncrypt_ctx {e e' : evp.Ctx} {text buffer : Bytes} {len : Int} {r : Bytes × Int}
    (h : (aesEncrypt evp e text len buffer).result = some (e', r)) :
    evp.encryptReinit e' = evp.encryptReinit (evp.encryptReinit e) := by
  unfold aesEncrypt at h
  simp only [Probe.bind_eq_some, Probe.result_pure, Option.some.injEq, Prod.mk.injEq] at h
  obtain ⟨_, -, _, -, input, -, _, -, _, -, _, -, rfl, -⟩ := h
  rw [evp.encryptReinit_final, evp.encryptReinit_update]

theorem aesDecrypt_ctx {e e' : evp.Ctx} {text buffer : Bytes} {len : Int} {r : Bytes × Int}
    (h : (aesDecrypt evp e text len buffer).result = some (e', r)) :
    evp.decryptReinit e' = evp.decryptReinit (evp.decryptReinit e) := by
  unfold aesDecrypt at h
  simp only [Probe.bind_eq_some, Probe.result_pure, Option.some.injEq, Prod.mk.injEq] at h
  obtain ⟨input, -, _, -, _, -, _, -, rfl, -⟩ := h
  rw [evp.decryptReinit_final, evp.decryptReinit_update]

variable {evp} in
theorem Ready.encrypt {key iv : Block} {c c' : BlockCipher evp} (hc : Ready evp key iv c) {text : Bytes}
    {length : Int} {r : Bytes × Int} (h : (c.encrypt text length).result = some (c', r)) :
    Ready evp key iv c' := by
  rw [BlockCipher.encrypt, Probe.bind_eq_some] at h
  obtain ⟨_, -, h⟩ := h
  obtain ⟨_, -, h⟩ := Probe.bind_eq_some.mp h
  obtain ⟨_, -, h⟩ := Probe.bind_eq_some.mp h
  obtain ⟨s, hs, h⟩ := Probe.bind_eq_some.mp h
  have hctx := aesEncrypt_ctx evp hs
  cases h
  refine ⟨?_, hc.decryptCtx⟩
  rw [hctx, hc.encryptCtx, evp.encryptReinit_init]

variable {evp} in
theorem Ready.decrypt {key iv : Block} {c c' : BlockCipher evp} (hc : Ready evp key iv c) {text : Bytes}
    {length : Int} {r : Bytes × Int} (h : (c.decrypt text length).result = some (c', r)) :
    Ready evp key iv c' := by
  rw [BlockCipher.decrypt, Probe.bind_eq_some] at h
  obtain ⟨s, hs, h⟩ := h
  have hctx := aesDecrypt_ctx evp hs
  cases h
  refine ⟨hc.encryptCtx, ?_⟩
  rw [hctx, hc.decryptCtx, evp.decryptReinit_init]

/-- Whatever an object has been used for. -/
theorem used_ready {password : Bytes} {iv : Block} {behind : Nat → UInt8} {c : BlockCipher evp}
    (h : Used evp password iv behind c) : Ready evp (keyBytes password behind) iv c := by
  induction h with
  | new h =>
      rw [new_eq evp (lengthOk_of_new evp h)] at h
      cases h
      exact ⟨evp.encryptReinit_init _ iv, evp.decryptReinit_init _ iv⟩
  | encrypt hc h ih => exact ih.encrypt h
  | decrypt hc h ih => exact ih.decrypt h

/-! ## 6. The exchange -/

/-- Two pieces written one behind the other into a zeroed buffer. -/
theorem storeBoth_result (a : Region) {out final : Bytes} {size : Nat}
    (h : out.length + final.length ≤ size) :
    ∃ buffer zeroes, (Probe.storeAll a 0 out (List.replicate size 0)).result = some buffer ∧
      (Probe.storeAll a out.length final buffer).result = some (out ++ final ++ zeroes) := by
  have hsize : List.replicate size (0 : UInt8) = List.replicate out.length 0 ++
      (List.replicate final.length 0 ++ List.replicate (size - out.length - final.length) 0) := by
    rw [List.replicate_append_replicate, List.replicate_append_replicate]
    congr 1
    omega
  refine ⟨out ++ (List.replicate final.length 0 ++
    List.replicate (size - out.length - final.length) 0),
    List.replicate (size - out.length - final.length) 0, ?_, ?_⟩
  · rw [hsize]
    exact Probe.result_storeAll_append a [] out (List.replicate out.length 0) _ List.length_replicate
  · rw [← List.append_assoc]
    exact Probe.result_storeAll_append a out final (List.replicate final.length 0) _
      List.length_replicate

/-- What libcrypto encrypts of `p` and its NUL. -/
def ciphertextOf (key iv : Block) (p : Bytes) : Bytes :=
  (evp.encrypted (evp.encryptInit key iv) (p ++ [0])).1 ++
    (evp.encrypted (evp.encryptInit key iv) (p ++ [0])).2

theorem length_ciphertextOf (key iv : Block) (p : Bytes) :
    (ciphertextOf evp key iv p).length = 16 * ((p.length + 1) / 16 + 1) := by
  have h := evp.length_encrypted key iv (p ++ [0])
  rw [List.length_append, List.length_singleton] at h
  rw [ciphertextOf, List.length_append, h]

/-- The buffer of `encrypt` holds the ciphertext. -/
theorem ciphertextOf_fits (key iv : Block) (p : Bytes) :
    (ciphertextOf evp key iv p).length ≤ p.length + 128 := by
  rw [length_ciphertextOf]
  omega

variable {evp}

theorem aesEncrypt_result {e : evp.Ctx} {key iv : Block}
    (he : evp.encryptReinit e = evp.encryptInit key iv) {p : Bytes} (hp : p.length + 129 < 2 ^ 31) :
    ∃ e' zeroes, (aesEncrypt evp e (p ++ [0]) ((p.length : Int) + 1)
        (List.replicate (p.length + 128) 0)).result =
      some (e', ciphertextOf evp key iv p ++ zeroes, ((ciphertextOf evp key iv p).length : Int)) := by
  have hfits := ciphertextOf_fits evp key iv p
  have hlen : (ciphertextOf evp key iv p).length =
      (evp.encrypted (evp.encryptInit key iv) (p ++ [0])).1.length +
        (evp.encrypted (evp.encryptInit key iv) (p ++ [0])).2.length := List.length_append
  obtain ⟨buffer, zeroes, hout, hfinal⟩ := storeBoth_result .encrypted (hlen ▸ hfits)
  have hinput : (Probe.lookAll Region.plaintext (p ++ [0]) ((p.length : Int) + 1).toNat 0).result =
      some (p ++ [0]) := by
    have h := Probe.result_lookAll_append Region.plaintext [] (p ++ [0]) []
    rw [List.nil_append, List.append_nil, List.length_append] at h
    exact h
  have hcLen : (addInt ((p.length : Int) + 1) aesBlockSize).result = some ((p.length : Int) + 129) :=
    addInt_eq_some.mpr ⟨by rw [aesBlockSize]; omega, by rw [aesBlockSize]; omega⟩
  have hcLen' : (addInt ((p.length : Int) + 129) (-1)).result = some ((p.length : Int) + 128) :=
    addInt_eq_some.mpr ⟨by omega, by omega⟩
  have htotal : (addInt ((evp.encrypted (evp.encryptInit key iv) (p ++ [0])).1.length : Int)
      (evp.encrypted (evp.encryptInit key iv) (p ++ [0])).2.length).result =
        some ((ciphertextOf evp key iv p).length : Int) :=
    addInt_eq_some.mpr ⟨by omega, by omega⟩
  refine ⟨(evp.encryptFinal (evp.encryptUpdate (evp.encryptInit key iv) (p ++ [0])).1).1, zeroes, ?_⟩
  unfold aesEncrypt
  unfold EvpFunctions.encrypted at hout hfinal htotal
  simp only [he, Probe.result_bind, hcLen, hcLen', hinput, hout, hfinal, htotal, Option.bind_eq_bind,
    Option.bind_some, Probe.result_pure]
  rfl

theorem encrypt_result {key iv : Block} {c : BlockCipher evp} (hc : Ready evp key iv c) {p : Bytes}
    (hp : p.length + 129 < 2 ^ 31) : ∃ c' zeroes,
      (c.encrypt (p ++ [0]) p.length).result =
        some (c', ciphertextOf evp key iv p ++ zeroes, ((ciphertextOf evp key iv p).length : Int)) := by
  obtain ⟨e', zeroes, haes⟩ := aesEncrypt_result hc.encryptCtx hp
  have hlength : (addInt (p.length : Int) 1).result = some ((p.length : Int) + 1) :=
    addInt_eq_some.mpr ⟨by omega, rfl⟩
  have hcLen : (addInt ((p.length : Int) + 1) aesBlockSize).result = some ((p.length : Int) + 129) :=
    addInt_eq_some.mpr ⟨by rw [aesBlockSize]; omega, by rw [aesBlockSize]; omega⟩
  have hcLen' : (addInt ((p.length : Int) + 129) (-1)).result = some ((p.length : Int) + 128) :=
    addInt_eq_some.mpr ⟨by omega, by omega⟩
  have hsize : ((p.length : Int) + 128).toNat = p.length + 128 := by omega
  refine ⟨{ c with encryptCtx := e' }, zeroes, ?_⟩
  unfold BlockCipher.encrypt
  simp only [Probe.result_bind, hlength, hcLen, hcLen', hsize, haes, Option.bind_eq_bind,
    Option.bind_some, Probe.result_pure]

/-- Encrypting stays in its arrays. -/
theorem encrypt_safe (c : BlockCipher evp) (p : Bytes) :
    Probe.Safe (encryptSize p.length) (c.encrypt (p ++ [0]) p.length) := by
  have hplain : (p ++ [0]).length = encryptSize p.length .plaintext := by
    rw [List.length_append]
    rfl
  refine Probe.safe_bind (safe_addInt _ _) fun length hlength => ?_
  refine Probe.safe_bind (safe_addInt _ _) fun size hsize => ?_
  refine Probe.safe_bind (safe_addInt _ _) fun bufferSize hbuffer => ?_
  refine Probe.safe_bind ?_ fun r _ => Probe.safe_pure _
  have hbytes : (List.replicate bufferSize.toNat (0 : UInt8)).length = encryptSize p.length .encrypted := by
    have h1 := (addInt_eq_some.mp hlength).2
    have h2 := (addInt_eq_some.mp hsize).2
    have h3 := (addInt_eq_some.mp hbuffer).2
    rw [List.length_replicate, h3, h2, h1, aesBlockSize, encryptSize]
    omega
  refine Probe.safe_bind (safe_addInt _ _) fun _ _ => ?_
  refine Probe.safe_bind (safe_addInt _ _) fun _ _ => ?_
  refine Probe.safe_bind (Probe.exact_lookAll hplain _ 0).safe fun input _ => ?_
  refine Probe.safe_bind (Probe.exact_storeAll 0 _ hbytes).safe fun buffer h => ?_
  refine Probe.safe_bind (Probe.exact_storeAll _ _ ((Probe.length_of_storeAll h).trans hbytes)).safe
    fun _ _ => ?_
  exact Probe.safe_bind (safe_addInt _ _) fun _ _ => Probe.safe_pure _

theorem aesDecrypt_result {e : evp.Ctx} {key iv : Block}
    (he : evp.decryptReinit e = evp.decryptInit key iv) {p : Bytes} (hp : p.length + 129 < 2 ^ 31)
    (behind : Bytes) :
    ∃ e' zeroes, (aesDecrypt evp e (ciphertextOf evp key iv p ++ behind) (ciphertextOf evp key iv p).length
        (List.replicate (ciphertextOf evp key iv p).length 0)).result =
      some (e', p ++ [0] ++ zeroes, (p.length : Int) + 1) := by
  obtain ⟨out, final, hdecrypted, htext⟩ := evp.decrypted_encrypted key iv (p ++ [0])
  rw [← ciphertextOf] at hdecrypted
  have hlen : out.length + final.length = p.length + 1 := by
    rw [← List.length_append, htext, List.length_append]
    rfl
  have hfits : out.length + final.length ≤ (ciphertextOf evp key iv p).length := by
    rw [length_ciphertextOf]
    omega
  obtain ⟨buffer, zeroes, hout, hfinal⟩ := storeBoth_result .cleantext hfits
  have hinput : (Probe.lookAll Region.ciphertext (ciphertextOf evp key iv p ++ behind)
      ((ciphertextOf evp key iv p).length : Int).toNat 0).result = some (ciphertextOf evp key iv p) :=
    Probe.result_lookAll_append Region.ciphertext [] (ciphertextOf evp key iv p) behind
  have htotal : (addInt (out.length : Int) final.length).result = some ((p.length : Int) + 1) :=
    addInt_eq_some.mpr ⟨by omega, by omega⟩
  have hupdate : (evp.decryptUpdate (evp.decryptInit key iv) (ciphertextOf evp key iv p)).2 = out :=
    congrArg Prod.fst hdecrypted
  have hend : (evp.decryptFinal
      (evp.decryptUpdate (evp.decryptInit key iv) (ciphertextOf evp key iv p)).1).2 = some final :=
    congrArg Prod.snd hdecrypted
  refine ⟨(evp.decryptFinal
    (evp.decryptUpdate (evp.decryptInit key iv) (ciphertextOf evp key iv p)).1).1, zeroes, ?_⟩
  unfold aesDecrypt
  simp only [he, Probe.result_bind, hinput, hupdate, hout, hend, Option.getD_some, hfinal, htotal,
    Option.bind_eq_bind, Option.bind_some, Probe.result_pure]
  rw [htext]

theorem decrypt_result {key iv : Block} {c : BlockCipher evp} (hc : Ready evp key iv c) {p : Bytes}
    (hp : p.length + 129 < 2 ^ 31) (behind : Bytes) : ∃ c' zeroes,
      (c.decrypt (ciphertextOf evp key iv p ++ behind) (ciphertextOf evp key iv p).length).result =
        some (c', p ++ [0] ++ zeroes, (p.length : Int) + 1) := by
  obtain ⟨e', zeroes, haes⟩ := aesDecrypt_result hc.decryptCtx hp behind
  refine ⟨{ c with decryptCtx := e' }, zeroes, ?_⟩
  unfold BlockCipher.decrypt
  simp only [Probe.result_bind, Int.toNat_natCast, haes, Option.bind_eq_bind, Option.bind_some,
    Probe.result_pure]

/-- Decrypting stays in its arrays. -/
theorem decrypt_safe (c : BlockCipher evp) (text : Bytes) (length : Int) :
    Probe.Safe (decryptSize text.length length) (c.decrypt text length) := by
  have hbytes : (List.replicate length.toNat (0 : UInt8)).length =
      decryptSize text.length length .cleantext := List.length_replicate
  have htext : text.length = decryptSize text.length length .ciphertext := rfl
  refine Probe.safe_bind ?_ fun r _ => Probe.safe_pure _
  refine Probe.safe_bind (Probe.exact_lookAll htext _ 0).safe fun input _ => ?_
  refine Probe.safe_bind (Probe.exact_storeAll 0 _ hbytes).safe fun buffer h => ?_
  refine Probe.safe_bind (Probe.exact_storeAll _ _ ((Probe.length_of_storeAll h).trans hbytes)).safe
    fun _ _ => ?_
  exact Probe.safe_bind (safe_addInt _ _) fun _ _ => Probe.safe_pure _

/-- Two objects of one key understand each other. -/
theorem exchanged_of_ready {key iv : Block} {a b : BlockCipher evp} (ha : Ready evp key iv a)
    (hb : Ready evp key iv b) {p : Bytes} (hp : p.length + 129 < 2 ^ 31) : Exchanged p a b := by
  obtain ⟨a', zeroes, hencrypt⟩ := encrypt_result ha hp
  obtain ⟨b', behind, hdecrypt⟩ := decrypt_result hb hp zeroes
  refine ⟨a', _, _, b', _, hencrypt, encrypt_safe a p (by rw [hencrypt]; rfl), hdecrypt,
    decrypt_safe b _ _ (by rw [hdecrypt]; rfl), ?_⟩
  exact List.take_left' (by rw [List.length_append]; rfl)

/-- Encrypting gives a result for lengths in the range of `int` only. -/
theorem length_of_encrypt {c : BlockCipher evp} {p : Bytes} {r : BlockCipher evp × Bytes × Int}
    (h : (c.encrypt (p ++ [0]) p.length).result = some r) : p.length + 129 < 2 ^ 31 := by
  rw [BlockCipher.encrypt, Probe.bind_eq_some] at h
  obtain ⟨length, hlength, h⟩ := h
  obtain ⟨size, hsize, -⟩ := Probe.bind_eq_some.mp h
  rw [addInt_eq_some] at hlength hsize
  rw [aesBlockSize] at hsize
  omega

variable (evp)

/-- **Two peers**: they understand each other, reading no byte but of the password, exactly where the
    password and its NUL fill the key and no length leaves the range of `int`. -/
theorem agree_exact (password : Bytes) (iv : Block) (p : Bytes) : Agree evp password iv p ↔
    15 ≤ password.length ∧ LengthOk password ∧ p.length + 129 < 2 ^ 31 := by
  constructor
  · intro h
    obtain ⟨c, hc⟩ := h.built fun _ => 0
    have hok := lengthOk_of_new evp hc
    refine ⟨(new_inside_iff evp hok iv fun _ => 0).mp (h.inside fun _ => 0), hok, ?_⟩
    obtain ⟨_, _, _, _, _, hencrypt, -⟩ := h.exchanged _ _ c c (.new hc) (.new hc)
    exact length_of_encrypt hencrypt
  · rintro ⟨hfifteen, hok, hp⟩
    refine ⟨fun behind => ⟨_, new_eq evp hok iv behind⟩, keyBytes_eq hfifteen, fun behind =>
      (new_inside_iff evp hok iv behind).mpr hfifteen, fun behind behind' a b ha hb => ?_⟩
    have hb' := used_ready evp hb
    rw [keyBytes_eq hfifteen behind' behind] at hb'
    exact exchanged_of_ready (used_ready evp ha) hb' hp

/-! ## 7. AES -/

/-- A context for AES-128-CBC: its key and IV, and what is between two pieces of the text. -/
structure AesCtx where
  key : Block
  iv : Block
  stream : Cbc.Stream 16

/-- AES-128-CBC with padding is such a library. -/
def aesEvp : Evp where
  Ctx := AesCtx
  bytesToKey _ _ _ := 16
  encryptInit key iv := ⟨key, iv, ⟨iv, []⟩⟩
  encryptReinit e := { e with stream := ⟨e.iv, []⟩ }
  encryptUpdate e text :=
    let r := Cbc.encryptPiece (Aes.blockCipher e.key) e.stream text
    ({ e with stream := r.1 }, r.2)
  encryptFinal e := (e, Cbc.encryptEnd (Aes.blockCipher e.key) e.stream)
  decryptInit key iv := ⟨key, iv, ⟨iv, []⟩⟩
  decryptReinit e := { e with stream := ⟨e.iv, []⟩ }
  decryptUpdate e text :=
    let r := Cbc.decryptPiece (Aes.blockCipher e.key) e.stream text
    ({ e with stream := r.1 }, r.2)
  decryptFinal e := (e, Cbc.decryptEnd (Aes.blockCipher e.key) e.stream)
  bytesToKey_size _ _ _ := rfl
  encryptReinit_init _ _ := rfl
  encryptReinit_update _ _ := rfl
  encryptReinit_final _ := rfl
  decryptReinit_init _ _ := rfl
  decryptReinit_update _ _ := rfl
  decryptReinit_final _ := rfl
  length_encrypted key iv text := by
    have h := Cbc.length_encrypt (Aes.blockCipher key) iv text
    rw [Cbc.encrypt, List.length_append] at h
    exact h
  decrypted_encrypted key iv text := by
    have h := Cbc.decrypt_encrypt (b := text) (Aes.blockCipher key) iv (by decide) (by decide)
    rw [Cbc.decrypt, Option.map_eq_some_iff] at h
    obtain ⟨final, hfinal, htext⟩ := h
    exact ⟨_, final, Prod.ext rfl hfinal, htext⟩

/-- With a password of six characters the constructor reads nine bytes behind its NUL. -/
theorem not_agree_secret : ¬ ∀ (evp : Evp) (password : Bytes) (iv : Block) (p : Bytes),
    NulFree p → Agree evp password iv p := by
  intro h
  have hagree := h aesEvp (ascii "secret") (Vector.replicate 16 7) (ascii "login 1234") (by decide)
  obtain ⟨c, hc⟩ := hagree.built fun _ => 0
  have hlength := (new_inside_iff aesEvp (lengthOk_of_new aesEvp hc) _ fun _ => 0).mp
    (hagree.inside fun _ => 0)
  exact absurd hlength (by decide)

end crypto

end Domoio
