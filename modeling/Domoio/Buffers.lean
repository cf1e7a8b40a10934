import Domoio.Lib.Scanners
import Domoio.World

/-
  File:      Domoio/Buffers.lean
  Subject:   What the codec and the reader touch in memory (src/crypto/crypto.cc, `process_input`).

  The functions of Crypto.lean and the reading of `process_input` once more, over arrays whose accesses
  are logged; they come to the same (`hexEncode_result`, `hexDecode_result`, `readInput_result`).

  * `hex_round_trip` -- the encoder writes inside its buffer, and whatever stands behind the encoding,
    decoding it gives the bytes back;
  * `sessionString_decoded` -- a client takes the IV from the session string, whatever the clock;
  * `inside_iff` -- the reader stays in the receive buffer where the chunk does not fill it, and where
    it does exactly if the scans find an end in it.
-/

namespace Domoio

open Lib

/-- The arrays. -/
inductive Region where
  | input
  | data
  | buffer
  deriving DecidableEq

namespace Traced

/-! ## 1. The code -/

/-- The encoder's loop, with `n` bytes to go from byte `i` on. -/
def hexEncodeLoop (input : Bytes) : Nat → Nat → Bytes → Probe Region Bytes
  | 0, _, buffer => pure buffer
  | n + 1, i, buffer => do
      let b ← Probe.look .input input i
      let buffer ← Probe.storeAll .buffer (i * 3) (hexGroup b ++ [0]) buffer
      hexEncodeLoop input n (i + 1) buffer

/-- `hex_encode` of the first `length` bytes of `input`: the buffer and the reported length. -/
def hexEncode (input : Bytes) (length : Int32) : Probe Region (Bytes × Int32) := do
  let reqLength := length * 3 + 1
  let buffer ← hexEncodeLoop input length.toInt.toNat 0 (List.replicate reqLength.toInt.toNat 0)
  return (buffer, reqLength)

/-- The decoder's loop, with `n` groups to go from group `i` on. -/
def hexDecodeLoop (input : Bytes) : Nat → Nat → Bytes → Probe Region Bytes
  | 0, _, buffer => pure buffer
  | n + 1, i, buffer => do
      let v ← Probe.strtol .data 16 (Probe.Cursor.ofIndex input (i * 3))
      let buffer ← Probe.store .buffer buffer i (toUChar v)
      hexDecodeLoop input n (i + 1) buffer

/-- `hex_decode` with `*length = length`: the buffer and the reported length. What an allocated buffer
    holds is `junk`. -/
def hexDecode (junk : Nat → UInt8) (input : Bytes) (length : Int) : Probe Region (Bytes × Int) := do
  let reqLength := (length - 1).tdiv 3
  let buffer ← hexDecodeLoop input reqLength.toNat 0 ((List.range reqLength.toNat).map junk)
  return (buffer, reqLength)

/-- `process_input` up to the request it dispatches. -/
def readInput (junk : Nat → UInt8) (sessionStarted : Bool) (data : Bytes) (bytesTransferred : Nat) :
    Probe Region Bytes := do
  if sessionStarted then
    let len := (bytesTransferred : Int) - 1
    let (clean, len) ← hexDecode junk data len
    Probe.lookAll .buffer clean len.toNat 0
  else Probe.cString .data ⟨0, data⟩

/-! ## 2. The encoder -/

variable {size : Region → Nat}

/-- Once the groups of `done` stand in the buffer, the loop writes the groups of the rest behind. -/
theorem hexEncodeLoop_result (done rest : Bytes) :
    (hexEncodeLoop (done ++ rest) rest.length done.length
        (hexText done ++ List.replicate (rest.length * 3 + 1) 0)).result =
      some (hexText (done ++ rest) ++ [0]) := by
  induction rest generalizing done with
  | nil =>
      rw [List.append_nil]
      rfl
  | cons b rest ih =>
      have hlook : (Probe.look Region.input (done ++ b :: rest) done.length).result = some b := by
        simp [Probe.look]
      have hzeroes : hexText done ++ List.replicate ((b :: rest).length * 3 + 1) 0 =
          hexText done ++ List.replicate 4 0 ++ List.replicate (rest.length * 3) 0 := by
        rw [List.append_assoc, List.replicate_append_replicate, List.length_cons]
        congr 2
        omega
      have hstore := Probe.result_storeAll_append Region.buffer (hexText done) (hexGroup b ++ [0])
        (List.replicate 4 0) (List.replicate (rest.length * 3) 0) rfl
      rw [length_hexText] at hstore
      have hnext : hexText done ++ (hexGroup b ++ [0]) ++ List.replicate (rest.length * 3) 0 =
          hexText (done ++ [b]) ++ List.replicate (rest.length * 3 + 1) 0 := by
        simp [hexText, List.replicate_succ]
      have hrest := ih (done ++ [b])
      rw [List.append_assoc, List.singleton_append, List.length_append, List.length_singleton] at hrest
      rw [List.length_cons, hexEncodeLoop, Probe.result_bind, hlook]
      show (Probe.storeAll _ _ _ _ >>= _).result = _
      rw [Probe.result_bind, ← List.length_cons (a := b), hzeroes, hstore, hnext]
      exact hrest

theorem exact_hexEncodeLoop {input : Bytes} (hinput : input.length = size .input) (n i : Nat)
    {buffer : Bytes} (hbuffer : buffer.length = size .buffer) :
    Probe.Exact size (hexEncodeLoop input n i buffer) := by
  induction n generalizing i buffer with
  | zero => exact Probe.exact_pure buffer
  | succ n ih =>
      refine Probe.exact_bind (Probe.exact_look hinput i) fun b _ => ?_
      refine Probe.exact_bind (Probe.exact_storeAll _ _ hbuffer) fun buffer' h => ?_
      exact ih (i + 1) ((Probe.length_of_storeAll h).trans hbuffer)

/-! ## 3. The decoder -/

/-- The loop overwrites what the buffer holds from its group on. -/
theorem hexDecodeLoop_result (input : Bytes) (n : Nat) (done rest : Bytes) (h : rest.length = n) :
    (hexDecodeLoop input n done.length (done ++ rest)).result =
      (Domoio.hexDecodeLoop n (input.drop (done.length * 3))).map (done ++ ·) := by
  induction n generalizing done rest with
  | zero =>
      cases List.length_eq_zero_iff.mp h
      rfl
  | succ n ih =>
      obtain ⟨c, rest, rfl⟩ := List.exists_cons_of_length_eq_add_one h
      rw [hexDecodeLoop, Probe.result_bind, Probe.result_strtol, Domoio.hexDecodeLoop]
      show (strtol 16 (input.drop (done.length * 3))).bind _ = _
      cases strtol 16 (input.drop (done.length * 3)) with
      | none => rfl
      | some v =>
          have hrest := ih (done ++ [toUChar v]) rest (Nat.succ.inj h)
          rw [List.append_assoc, List.singleton_append, List.length_append, List.length_singleton] at hrest
          rw [Option.bind_some, Probe.result_bind, Probe.result_store_append]
          show (hexDecodeLoop input n (done.length + 1) (done ++ toUChar v :: rest)).result = _
          rw [hrest, List.drop_drop, Nat.add_one_mul]
          cases Domoio.hexDecodeLoop n (input.drop (done.length * 3 + 3)) <;> simp

theorem hexDecode_result (junk : Nat → UInt8) (input : Bytes) (length : Int) :
    (hexDecode junk input length).result =
      (Domoio.hexDecode input length).map fun b => (b, (length - 1).tdiv 3) := by
  have hloop := hexDecodeLoop_result input ((length - 1).tdiv 3).toNat []
    ((List.range ((length - 1).tdiv 3).toNat).map junk) (by simp)
  rw [List.length_nil, Nat.zero_mul, List.drop_zero] at hloop
  rw [hexDecode, Probe.result_bind, Domoio.hexDecode]
  show (hexDecodeLoop input _ 0 _).result.bind _ = _
  rw [← List.nil_append ((List.range ((length - 1).tdiv 3).toNat).map junk), hloop]
  cases Domoio.hexDecodeLoop ((length - 1).tdiv 3).toNat input <;> rfl

theorem exact_hexDecodeLoop {input : Bytes} (hinput : input.length = size .data) (n i : Nat)
    (hn : (i + n) * 3 ≤ input.length) {buffer : Bytes} (hbuffer : buffer.length = size .buffer) :
    Probe.Exact size (hexDecodeLoop input n i buffer) := by
  induction n generalizing i buffer with
  | zero => exact Probe.exact_pure buffer
  | succ n ih =>
      have hends : (Probe.Cursor.ofIndex input (i * 3)).Ends (size .data) :=
        hinput ▸ Probe.Cursor.ends_ofIndex (by omega)
      refine Probe.exact_bind (Probe.exact_strtol 16 hends) fun v _ => ?_
      refine Probe.exact_bind (Probe.exact_store hbuffer i _) fun buffer' h => ?_
      exact ih (i + 1) (by omega) ((Probe.length_of_store h).trans hbuffer)

theorem exact_hexDecode (junk : Nat → UInt8) {input : Bytes} {length : Int}
    (hinput : input.length = size .data) (hlength : length ≤ input.length)
    (hbuffer : ((length - 1).tdiv 3).toNat = size .buffer) :
    Probe.Exact size (hexDecode junk input length) := by
  have hgroups : (0 + ((length - 1).tdiv 3).toNat) * 3 ≤ input.length := by
    rcases Int.lt_or_le length 1 with hneg | hpos
    · have hneg' : (length - 1).tdiv 3 = -(1 - length).tdiv 3 := by
        rw [← Int.neg_tdiv, Int.neg_sub]
      have hnonneg : 0 ≤ (1 - length).tdiv 3 := Int.tdiv_nonneg (by omega) (by decide)
      omega
    · rw [Int.tdiv_eq_ediv_of_nonneg (by omega)]
      omega
  exact Probe.exact_bind (exact_hexDecodeLoop hinput _ 0 hgroups (by simpa using hbuffer))
    fun _ _ => Probe.exact_pure _

/-! ## 4. The reader -/

theorem length_of_hexDecodeLoop {n : Nat} {input bs : Bytes} (h : Domoio.hexDecodeLoop n input = some bs) :
    bs.length = n := by
  induction n generalizing input bs with
  | zero =>
      cases h
      rfl
  | succ n ih =>
      rw [Domoio.hexDecodeLoop] at h
      obtain ⟨v, -, h⟩ := Option.bind_eq_some_iff.mp h
      obtain ⟨rest, hrest, h⟩ := Option.bind_eq_some_iff.mp h
      cases h
      rw [List.length_cons, ih hrest]

/-- The reader comes to the request of the chunk. -/
theorem readInput_result (junk : Nat → UInt8) (started : Bool) (data : Bytes) (n : Nat) :
    (readInput junk started data n).result = World.requestOf started data n := by
  cases started with
  | false => exact Probe.result_cString Region.data ⟨0, data⟩
  | true =>
      show (hexDecode junk data ((n : Int) - 1) >>= _).result = Domoio.hexDecode data ((n : Int) - 1)
      rw [Probe.result_bind, hexDecode_result]
      cases hclean : Domoio.hexDecode data ((n : Int) - 1) with
      | none => rfl
      | some clean =>
          have hlen : clean.length = (((n : Int) - 1 - 1).tdiv 3).toNat := length_of_hexDecodeLoop hclean
          have hcopy := Probe.result_lookAll_append Region.buffer [] clean []
          rw [List.nil_append, List.append_nil, List.length_nil] at hcopy
          show (Probe.lookAll Region.buffer clean _ 0).result = some clean
          rw [← hlen]
          exact hcopy

theorem exact_readInput (junk : Nat → UInt8) (started : Bool) {data : Bytes} {n : Nat}
    (hdata : data.length = size .data) (hn : n ≤ data.length)
    (hbuffer : (((n : Int) - 2).tdiv 3).toNat = size .buffer) :
    Probe.Exact size (readInput junk started data n) := by
  cases started with
  | false =>
      refine Probe.exact_cString ?_
      rw [Probe.Cursor.Ends, Nat.zero_add, hdata]
  | true =>
      have hreq : (n : Int) - 1 - 1 = (n : Int) - 2 := by omega
      refine Probe.exact_bind (exact_hexDecode junk hdata (by omega) (hreq ▸ hbuffer)) fun r hr => ?_
      rw [hexDecode_result] at hr
      obtain ⟨clean, hclean, rfl⟩ := Option.map_eq_some_iff.mp hr
      have hlen : clean.length = (((n : Int) - 1 - 1).tdiv 3).toNat := length_of_hexDecodeLoop hclean
      exact Probe.exact_lookAll (hlen.trans (hreq ▸ hbuffer)) _ 0

end Traced

/-! ## 5. The codec -/

theorem hexEncode_reported {length : Int32} {n : Nat} (hlength : length.toInt = n)
    (hrange : 3 * n + 1 < 2 ^ 31) : (length * 3 + 1).toInt = 3 * n + 1 := by
  have hthree : (3 : Int32).toInt = 3 := rfl
  have hone : (1 : Int32).toInt = 1 := rfl
  have hmul : (length * 3).toInt = 3 * n := by
    rw [Int32.toInt_mul, hlength, hthree, Int.bmod_eq_of_le] <;> omega
  rw [Int32.toInt_add, hmul, hone, Int.bmod_eq_of_le] <;> omega

/-- The sizes of the encoder's arrays. -/
def encoderSize (n : Nat) : Region → Nat
  | .input => n
  | .data => 0
  | .buffer => 3 * n + 1

theorem hexEncode_result {bs : Bytes} {length : Int32} (hlength : length.toInt = bs.length)
    (hrange : 3 * bs.length + 1 < 2 ^ 31) :
    (Traced.hexEncode bs length).result = some (hexEncode bs, length * 3 + 1) := by
  have hloop := Traced.hexEncodeLoop_result [] bs
  have hreq := hexEncode_reported hlength hrange
  have hsize : (length * 3 + 1).toInt.toNat = bs.length * 3 + 1 := by omega
  rw [Traced.hexEncode, hlength, hsize, Int.toNat_natCast, Probe.result_bind]
  rw [List.nil_append, hexText_nil, List.nil_append, List.length_nil] at hloop
  rw [hloop, hexEncode_eq]
  rfl

/-- The encoder writes inside the buffer it allocates. -/
theorem hexEncode_inside {bs : Bytes} {length : Int32} (hlength : length.toInt = bs.length)
    (hrange : 3 * bs.length + 1 < 2 ^ 31) :
    ∀ a ∈ (Traced.hexEncode bs length).log, a.array = .buffer → a.index < 3 * bs.length + 1 := by
  have hreq := hexEncode_reported hlength hrange
  have hexact : Probe.Exact (encoderSize bs.length) (Traced.hexEncode bs length) := by
    refine Probe.exact_bind (Traced.exact_hexEncodeLoop rfl _ 0 ?_) fun _ _ => Probe.exact_pure _
    rw [List.length_replicate, encoderSize]
    omega
  have hinside : Probe.Inside (encoderSize bs.length) (Traced.hexEncode bs length) :=
    hexact.mp (by rw [hexEncode_result hlength hrange]; rfl)
  intro a ha harray
  have hindex := hinside a ha
  rwa [harray] at hindex

/-- Whatever stands behind the text of the bytes, its groups are decoded to them. -/
theorem hexText_decoded (junk : Nat → UInt8) (bs t : Bytes) :
    (Traced.hexDecode junk (hexText bs ++ t) (3 * bs.length + 1)).result = some (bs, (bs.length : Int)) := by
  rw [Traced.hexDecode_result, hexDecode_hexText bs t _ (by omega) (by omega)]
  have hreq : (3 * (bs.length : Int) + 1 - 1).tdiv 3 = bs.length := by
    rw [Int.tdiv_eq_ediv_of_nonneg (by omega)]
    omega
  rw [hreq]
  rfl

/-- The codec on the bytes `bs` of length `length`. -/
structure HexRoundTrip (bs : Bytes) (length : Int32) (text : Bytes) (reqLength : Int32) : Prop where
  encoded : (Traced.hexEncode bs length).result = some (text, reqLength)
  reported : reqLength.toInt = 3 * bs.length + 1
  inside : ∀ a ∈ (Traced.hexEncode bs length).log, a.array = .buffer → a.index < 3 * bs.length + 1
  decoded : ∀ (junk : Nat → UInt8) (t : Bytes),
    (Traced.hexDecode junk (text.take (3 * bs.length) ++ t) (3 * bs.length + 1)).result =
      some (bs, (bs.length : Int))

/-- A client takes the IV from the session string, whatever the clock and whatever stands behind. -/
def IvDecoded (cipher : BlockCipher) (clock : Int) : Prop :=
  ∀ (junk : Nat → UInt8) (t : Bytes),
    (Traced.hexDecode junk (cipher.sessionString clock ++ t) (16 * 3 + 1)).result = some (cipher.iv, 16)

theorem sessionString_decoded {cipher : BlockCipher} (h : cipher.iv.length = 16) (clock : Int) :
    IvDecoded cipher clock := by
  intro junk t
  have hdecoded := hexText_decoded junk cipher.iv (ascii (toString clock) ++ t)
  rw [h] at hdecoded
  rw [BlockCipher.sessionString, cString_hexEncode, List.append_assoc]
  exact hdecoded

/-- **The codec**: encoding stays inside its buffer and decoding undoes it whatever stands behind the
    text; so the session string gives the IV. -/
theorem hex_round_trip (bs : Bytes) {length : Int32} (hlength : length.toInt = bs.length)
    (hrange : 3 * bs.length + 1 < 2 ^ 31) :
    (∃ text reqLength, HexRoundTrip bs length text reqLength) ∧
    ∀ (cipher : BlockCipher) (clock : Int), cipher.iv.length = 16 → IvDecoded cipher clock := by
  refine ⟨⟨hexEncode bs, length * 3 + 1, ?_⟩, fun cipher clock h => sessionString_decoded h clock⟩
  refine ⟨hexEncode_result hlength hrange, hexEncode_reported hlength hrange,
    hexEncode_inside hlength hrange, fun junk t => ?_⟩
  rw [hexEncode_eq, List.take_left' (by rw [length_hexText, Nat.mul_comm])]
  exact hexText_decoded junk bs t

theorem hex_round_trip_seven :
    (∃ text reqLength, HexRoundTrip [0, 171, 255] 3 text reqLength) ∧
      IvDecoded { password := [], iv := List.replicate 16 7 } (-1) :=
  have hlength : (3 : Int32).toInt = ([0, 171, 255] : Bytes).length := rfl
  have h := hex_round_trip [0, 171, 255] hlength (by decide)
  ⟨h.1, h.2 _ (-1) rfl⟩

/-! ## 6. The receive buffer -/

/-- The sizes of the reader's arrays, where `n` bytes have been received: the receive buffer, and what
    the decoder allocates. -/
def readerSize (n : Nat) : Region → Nat
  | .input => 0
  | .data => clientBufferMaxLength
  | .buffer => (((n : Int) - 2).tdiv 3).toNat

/-- Reading a chunk in a mode stays inside the arrays. -/
def ReadsInside (sessionStarted : Bool) (chunk : Bytes) : Prop :=
  ∀ (junk : Nat → UInt8),
    ∀ a ∈ (Traced.readInput junk sessionStarted (World.receiveBuffer chunk) chunk.length).log,
      a.index < readerSize chunk.length a.array

theorem length_receiveBuffer {chunk : Bytes} (h : chunk.length ≤ clientBufferMaxLength) :
    (World.receiveBuffer chunk).length = clientBufferMaxLength := by
  rw [World.receiveBuffer, List.length_append, List.length_replicate, Nat.add_sub_cancel' h]

/-- The reader stays inside exactly where it comes to a request. -/
theorem readsInside_iff {started : Bool} {chunk : Bytes} (h : chunk.length ≤ clientBufferMaxLength) :
    ReadsInside started chunk ↔
      (World.requestOf started (World.receiveBuffer chunk) chunk.length).isSome := by
  have hlen := length_receiveBuffer h
  have hexact : ∀ junk, Probe.Exact (readerSize chunk.length)
      (Traced.readInput junk started (World.receiveBuffer chunk) chunk.length) := fun junk =>
    Traced.exact_readInput junk started hlen (hlen ▸ h) rfl
  constructor
  · intro hin
    rw [← Traced.readInput_result fun _ => 0]
    exact (hexact fun _ => 0).mpr (hin fun _ => 0)
  · intro hsome junk
    exact (hexact junk).mp (by rw [Traced.readInput_result]; exact hsome)

theorem mem_zero_receiveBuffer {chunk : Bytes} :
    0 ∈ World.receiveBuffer chunk ↔ chunk.length < clientBufferMaxLength ∨ 0 ∈ chunk := by
  rw [World.receiveBuffer, List.mem_append, List.mem_replicate, Or.comm]
  have hpos : clientBufferMaxLength - chunk.length ≠ 0 ↔ chunk.length < clientBufferMaxLength := by omega
  rw [hpos]
  simp

theorem hexDecodeLoop_isSome {n : Nat} {input : Bytes} :
    (hexDecodeLoop n input).isSome ↔ ∀ i < n, ¬ RunsOff (input.drop (i * 3)) := by
  induction n generalizing input with
  | zero => exact iff_of_true rfl nofun
  | succ n ih =>
      have hsplit : (∀ i < n + 1, ¬ RunsOff (input.drop (i * 3))) ↔
          ¬ RunsOff input ∧ ∀ i < n, ¬ RunsOff ((input.drop 3).drop (i * 3)) := by
        rw [Nat.forall_lt_succ_left]
        simp only [Nat.zero_mul, List.drop_zero, List.drop_drop, Nat.add_one_mul, Nat.add_comm 3]
      rw [hsplit, ← ih, ← strtol_eq_none, hexDecodeLoop]
      cases strtol 16 input with
      | none => simp
      | some v => cases hexDecodeLoop n (input.drop 3) <;> simp

/-- A group that begins inside the chunk finds an end in the zeroes behind it. -/
theorem receiveBuffer_ends {chunk : Bytes} (h : chunk.length < clientBufferMaxLength) {i : Nat}
    (hi : i ≤ chunk.length) : ¬ RunsOff ((World.receiveBuffer chunk).drop i) := by
  intro hoff
  refine hoff.nulFree 0 ?_ rfl
  rw [World.receiveBuffer, List.drop_append_of_le_length hi, List.mem_append]
  exact .inr (List.mem_replicate.mpr ⟨by omega, rfl⟩)

theorem receiveBuffer_full {chunk : Bytes} (h : chunk.length = clientBufferMaxLength) :
    World.receiveBuffer chunk = chunk := by
  rw [World.receiveBuffer, h, Nat.sub_self, List.replicate_zero, List.append_nil]

/-- **Reading a chunk**: it stays inside the arrays where the chunk does not fill the buffer. Where it
    does, in the clear if a NUL is in it, and in a session if no group of it is scanned to the end. -/
theorem reads_inside_exact (started : Bool) {chunk : Bytes}
    (h : chunk.length ≤ clientBufferMaxLength) : ReadsInside started chunk ↔
      chunk.length < clientBufferMaxLength ∨ (started = false ∧ 0 ∈ chunk) ∨
        (started = true ∧ ∀ i < (chunk.length - 2) / 3, ¬ RunsOff (chunk.drop (i * 3))) := by
  rw [readsInside_iff h]
  cases started with
  | false =>
      have hraw : (World.requestOf false (World.receiveBuffer chunk) chunk.length).isSome ↔
          0 ∈ World.receiveBuffer chunk := by
        show (bufferString _).isSome ↔ _
        unfold bufferString
        split <;> simp [*]
      rw [hraw, mem_zero_receiveBuffer]
      simp
  | true =>
      have hgroups : (((chunk.length : Int) - 1 - 1).tdiv 3).toNat = (chunk.length - 2) / 3 := by
        rcases Nat.lt_or_ge chunk.length 2 with hlow | hhigh
        · interval_cases chunk.length <;> rfl
        · rw [Int.tdiv_eq_ediv_of_nonneg (by omega)]
          omega
      show (hexDecodeLoop _ (World.receiveBuffer chunk)).isSome ↔ _
      rw [hexDecodeLoop_isSome, hgroups]
      rcases Nat.lt_or_eq_of_le h with hlt | heq
      · refine iff_of_true (fun i hi => receiveBuffer_ends hlt ?_) (.inl hlt)
        omega
      · rw [receiveBuffer_full heq]
        simp [heq]

theorem reads_inside_exact_short : ReadsInside false [108, 111, 103] :=
  (reads_inside_exact false (by decide)).mpr (.inl (by decide))

/-- A full buffer without a NUL is read past its end. -/
theorem not_reads_inside_full : ¬ ∀ (started : Bool) (chunk : Bytes), 1 ≤ chunk.length →
    chunk.length ≤ clientBufferMaxLength → ReadsInside started chunk := by
  intro hall
  obtain ⟨chunk, hlen, hnul⟩ : ∃ chunk : Bytes, chunk.length = clientBufferMaxLength ∧ 0 ∉ chunk :=
    ⟨List.replicate clientBufferMaxLength 97, List.length_replicate, fun h =>
      absurd (List.eq_of_mem_replicate h) (by decide)⟩
  have hin := (readsInside_iff hlen.le).mp (hall false chunk (by rw [hlen]; decide) hlen.le)
  rw [receiveBuffer_full hlen, World.requestOf, if_neg Bool.false_ne_true, bufferString, if_neg hnul] at hin
  cases hin

end Domoio
