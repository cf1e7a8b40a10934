import Mathlib.Data.Vector.Basic
import Domoio.Lib.ByteOrder
import Domoio.Lib.Incremental

/-
  File:      Domoio/WebSocketFrames.lean
  Subject:   The frames of a web socket (vendor/mongoose/mongoose.c).

  Section 1 is the code: what `deliver_websocket_frame` makes of the bytes that are there, and what
  `mg_websocket_write` sends. Section 2 is the format: a header declares a length, a frame is a header
  with as much content behind it as it declares. Section 3 reads a header back from its bytes; sizes are
  numbers modulo 2^64, so a length may be declared with which the frame's own length wraps.
-/

namespace Domoio

open Lib

/-! ## 1. The code -/

/-- What the handler is given of a frame: `wsbits`, `content_len`, and the bytes that `content` points
    at where all of them have been received. -/
structure WsRequest where
  wsbits : UInt8
  contentLen : Nat
  content : Option Bytes
  deriving DecidableEq

/-- The bytes from `i` on, `n` of them. -/
def slice (buf : Bytes) (i n : Nat) : Bytes := (buf.drop i).take n

/-- `mask_len`. -/
def maskLen (buf : Bytes) : Nat := if buf.getD 1 0 &&& 128 = 0 then 0 else 4

/-- `header_len` and `data_len`; both stay 0 while the header is not all there. -/
def frameLengths (buf : Bytes) : Nat × Nat :=
  if 2 ≤ buf.length then
    let len := (buf.getD 1 0 &&& 127).toNat
    if len < 126 ∧ maskLen buf ≤ buf.length then
      (2 + maskLen buf, len)
    else if len = 126 ∧ 4 + maskLen buf ≤ buf.length then
      (4 + maskLen buf, bigEndian (slice buf 2 2))
    else if 10 + maskLen buf ≤ buf.length then
      (10 + maskLen buf, bigEndian (slice buf 2 4) * 2 ^ 32 + bigEndian (slice buf 6 4))
    else (0, 0)
  else (0, 0)

/-- The loop over the content that applies the mask. -/
def applyMask (mask content : Bytes) : Bytes :=
  content.mapIdx fun i c => c ^^^ mask.getD (i % 4) 0

/-- `deliver_websocket_frame`: nothing is delivered (`more`), the handler is called and `frame_len`
    bytes are removed (`item`), or the loop that applies the mask leaves the buffer (`fault`). -/
def deliverWebsocketFrame (buf : Bytes) : Decoded WsRequest :=
  let headerLen := (frameLengths buf).1
  let dataLen := (frameLengths buf).2
  let frameLen := (headerLen + dataLen) % 2 ^ 64
  if 0 < frameLen ∧ frameLen ≤ buf.length then
    if headerLen + dataLen < 2 ^ 64 then
      let content := slice buf headerLen dataLen
      let unmasked :=
        if 0 < maskLen buf then
          applyMask (slice buf (headerLen - maskLen buf) (maskLen buf)) content
        else content
      .item ⟨buf.getD 0 0, dataLen, some unmasked⟩ frameLen
    else if 0 < maskLen buf then .fault
    else .item ⟨buf.getD 0 0, dataLen, none⟩ frameLen
  else .more

/-- What there is of a connection for the bytes that go out: `send_iobuf` and the flag
    `NSF_FINISHED_SENDING_DATA`. -/
structure WsOutput where
  sendIobuf : Bytes := []
  finishedSendingData : Bool := false
  deriving DecidableEq

/-- `mg_write` takes the length as an `int`, and `iobuf_append` appends nothing where it is negative. -/
def WsOutput.mgWrite (out : WsOutput) (buf : Bytes) : WsOutput :=
  let len := buf.length % 2 ^ 32
  if len < 2 ^ 31 then { out with sendIobuf := out.sendIobuf ++ buf.take len } else out

/-- The bytes that `mg_websocket_write` puts together in `copy`. -/
def websocketCopy (opcode : Nat) (data : Bytes) : Bytes :=
  let first := UInt8.ofNat (0x80 + opcode % 16)
  if data.length < 126 then first :: UInt8.ofNat data.length :: data
  else if data.length ≤ 0xFFFF then first :: 126 :: (bigEndianBytes 2 data.length ++ data)
  else
    first :: 127 :: (bigEndianBytes 4 (data.length / 2 ^ 32) ++
      (bigEndianBytes 4 (data.length % 2 ^ 32) ++ data))

/-- `mg_websocket_write`. -/
def WsOutput.mgWebsocketWrite (out : WsOutput) (opcode : Nat) (data : Bytes) : WsOutput :=
  if 2 ^ 64 - 1 - 10 < data.length then out
  else
    let out := out.mgWrite (websocketCopy opcode data)
    if opcode = 8 then { out with finishedSendingData := true } else out

/-! ## 2. The format -/

/-- Where a header says the length: in its second byte, or in two or eight bytes behind it. -/
inductive LengthField where
  | inline
  | two
  | eight

namespace LengthField

/-- The seven bits of the second byte. -/
def code (len : Nat) : LengthField → Nat
  | .inline => len
  | .two => 126
  | .eight => 127

def width : LengthField → Nat
  | .inline => 0
  | .two => 2
  | .eight => 8

def limit : LengthField → Nat
  | .inline => 126
  | .two => 2 ^ 16
  | .eight => 2 ^ 64

end LengthField

/-- A header: the first byte, the length it declares, and the mask, of four bytes or none. -/
structure WsHeader where
  bits : UInt8
  field : LengthField
  length : Nat
  mask : Bytes
  fits : length < field.limit
  mask_length : mask = [] ∨ mask.length = 4

namespace WsHeader

def second (h : WsHeader) : UInt8 :=
  UInt8.ofNat (h.field.code h.length + if h.mask = [] then 0 else 128)

def bytes (h : WsHeader) : Bytes :=
  h.bits :: h.second :: (bigEndianBytes h.field.width h.length ++ h.mask)

/-- The length of the header and of what it declares. -/
def total (h : WsHeader) : Nat := h.bytes.length + h.length

end WsHeader

/-- A frame, with the length its header declares; its own length is a `size_t`. -/
structure WsFrame extends WsHeader where
  content : Bytes
  length_content : content.length = length
  total_lt : toWsHeader.total < 2 ^ 64

namespace WsFrame

/-- The content as it is on its way. -/
def masked (f : WsFrame) : Bytes :=
  if f.mask = [] then f.content else applyMask f.mask f.content

def wire (f : WsFrame) : Bytes := f.bytes ++ f.masked

/-- What the handler is given of the frame. -/
def request (f : WsFrame) : WsRequest := ⟨f.bits, f.length, some f.content⟩

end WsFrame

/-! ## 3. Reading a header -/

theorem and_low {n : Nat} (hn : n < 256) : (UInt8.ofNat n &&& 127).toNat = n % 128 := by
  have hmod : n &&& 127 = n % 128 := Nat.and_two_pow_sub_one_eq_mod n 7
  rw [UInt8.toNat_and, UInt8.toNat_ofNat_of_lt' hn]
  exact hmod

theorem and_high {n : Nat} (hn : n < 256) : UInt8.ofNat n &&& 128 = 0 ↔ n < 128 := by
  revert n
  decide +kernel

theorem slice_append (buf : Bytes) (i m n : Nat) :
    slice buf i m ++ slice buf (i + m) n = slice buf i (m + n) := by
  rw [slice, slice, slice, List.take_add, List.drop_drop]

theorem length_slice {buf : Bytes} {i n : Nat} (h : i + n ≤ buf.length) : (slice buf i n).length = n := by
  rw [slice, List.length_take, List.length_drop]
  omega

/-- The two halves of the long length are one number. -/
theorem bigEndian_halves {buf : Bytes} (h : 10 ≤ buf.length) :
    bigEndian (slice buf 2 4) * 2 ^ 32 + bigEndian (slice buf 6 4) = bigEndian (slice buf 2 8) := by
  have hlength : (slice buf (2 + 4) 4).length = 4 := length_slice h
  rw [← slice_append buf 2 4 4, bigEndian_append, hlength]
  norm_num

namespace WsHeader

variable (h : WsHeader) (t : Bytes)

theorem length_bytes : h.bytes.length = 2 + h.field.width + h.mask.length := by
  simp [bytes]
  omega

theorem code_lt : h.field.code h.length < 128 := by
  have hfits := h.fits
  cases hf : h.field <;> simp [hf, LengthField.code, LengthField.limit] at hfits ⊢
  omega

theorem second_lt : h.field.code h.length + (if h.mask = [] then 0 else 128) < 256 := by
  have hcode := h.code_lt
  split <;> omega

theorem getD_zero : (h.bytes ++ t).getD 0 0 = h.bits := rfl

theorem getD_one : (h.bytes ++ t).getD 1 0 = h.second := rfl

@[simp] theorem maskLen_bytes : maskLen (h.bytes ++ t) = h.mask.length := by
  have hcode := h.code_lt
  rw [maskLen, getD_one, second]
  rcases h.mask_length with hnil | hfour
  · rw [if_pos ((and_high h.second_lt).mpr (by simpa [hnil] using hcode)), hnil, List.length_nil]
  · have hne : h.mask ≠ [] := by
      intro hnil
      rw [hnil] at hfour
      cases hfour
    have hhigh : ¬ h.field.code h.length + (if h.mask = [] then 0 else 128) < 128 := by
      rw [if_neg hne]
      omega
    rw [if_neg (fun hz => hhigh ((and_high h.second_lt).mp hz)), hfour]

theorem low_second : (h.second &&& 127).toNat = h.field.code h.length := by
  have hcode := h.code_lt
  rw [second, and_low h.second_lt]
  split <;> omega

theorem slice_length : slice (h.bytes ++ t) 2 h.field.width = bigEndianBytes h.field.width h.length := by
  rw [slice, bytes]
  simp

theorem slice_mask : slice (h.bytes ++ t) (h.bytes.length - h.mask.length) h.mask.length = h.mask := by
  have hsplit : h.bytes = (h.bits :: h.second :: bigEndianBytes h.field.width h.length) ++ h.mask := by
    simp [bytes]
  have hlength : h.bytes.length - h.mask.length =
      (h.bits :: h.second :: bigEndianBytes h.field.width h.length).length := by
    rw [hsplit, List.length_append, Nat.add_sub_cancel]
  rw [slice, hlength, hsplit, List.append_assoc, List.drop_left, List.take_left]

theorem slice_content (n : Nat) : slice (h.bytes ++ t) h.bytes.length n = t.take n := by
  rw [slice, List.drop_left]

/-- The header says how long it is and how much follows. -/
@[simp] theorem frameLengths_bytes : frameLengths (h.bytes ++ t) = (h.bytes.length, h.length) := by
  have hlength := h.length_bytes
  have hfits := h.fits
  have hslice := h.slice_length t
  have hwidth : (h.bytes ++ t).length = 2 + h.field.width + h.mask.length + t.length := by
    rw [List.length_append, hlength]
  have hlow := h.low_second
  rw [frameLengths, getD_one, hlow, maskLen_bytes, hwidth, hlength]
  cases hf : h.field with
  | inline =>
      have hcode : LengthField.inline.code h.length = h.length := rfl
      have hzero : LengthField.inline.width = 0 := rfl
      have hlimit : LengthField.inline.limit = 126 := rfl
      rw [hf, hlimit] at hfits
      rw [hcode, hzero, if_pos (by omega), if_pos (by omega), Nat.add_zero]
  | two =>
      have hcode : LengthField.two.code h.length = 126 := rfl
      have htwo : LengthField.two.width = 2 := rfl
      have hlimit : LengthField.two.limit = 256 ^ 2 := rfl
      rw [hf, hlimit] at hfits
      rw [hf, htwo] at hslice
      rw [hcode, htwo, if_pos (by omega), if_neg (by omega), if_pos (by omega), hslice,
        bigEndian_bigEndianBytes (by omega)]
  | eight =>
      have hcode : LengthField.eight.code h.length = 127 := rfl
      have height : LengthField.eight.width = 8 := rfl
      have hlimit : LengthField.eight.limit = 256 ^ 8 := rfl
      rw [hf, hlimit] at hfits
      rw [hf, height] at hslice
      have hten : 10 ≤ (h.bytes ++ t).length := by
        rw [hwidth, hf, height]
        omega
      rw [hcode, height, if_pos (by omega), if_neg (by omega), if_neg (by omega), if_pos (by omega),
        bigEndian_halves hten, hslice, bigEndian_bigEndianBytes (by omega)]

/-- Bytes with a length field and as much behind it as the field and the mask take begin with a header. -/
theorem exists_bytes {b c : UInt8} {rest : Bytes} (field : LengthField) {len : Nat}
    (hcode : field.code len = (c &&& 127).toNat) (hfits : len < field.limit)
    (hlength : bigEndianBytes field.width len = rest.take field.width)
    (hrest : field.width + maskLen (b :: c :: rest) ≤ rest.length) :
    ∃ (h : WsHeader) (t : Bytes), b :: c :: rest = h.bytes ++ t := by
  obtain ⟨n, hn, rfl⟩ : ∃ n, n < 256 ∧ c = UInt8.ofNat n := ⟨c.toNat, c.toNat_lt, by simp⟩
  have hmask : maskLen (b :: UInt8.ofNat n :: rest) = if n < 128 then 0 else 4 := by
    simp only [maskLen, List.getD_cons_succ, List.getD_cons_zero, and_high hn]
  rw [and_low hn] at hcode
  rw [hmask] at hrest
  generalize hm : (if n < 128 then 0 else 4) = m at hrest
  have htake : ((rest.drop field.width).take m).length = m := by
    rw [List.length_take, List.length_drop]
    omega
  have hnil : (rest.drop field.width).take m = [] ↔ n < 128 := by
    rw [← List.length_eq_zero_iff, htake, ← hm]
    split <;> omega
  refine ⟨⟨b, field, len, (rest.drop field.width).take m, hfits, ?_⟩, rest.drop (field.width + m), ?_⟩
  · rw [htake, hnil]
    split at hm <;> omega
  · have hsecond : field.code len + (if n < 128 then 0 else 128) = n := by
      rw [hcode]
      split <;> omega
    simp only [bytes, second, hnil, hsecond, hlength, List.cons_append]
    rw [List.append_assoc, ← List.drop_drop, List.take_append_drop, List.take_append_drop]

/-- Without a whole header the lengths are 0, or more than there is. -/
theorem short_or_exists_bytes (buf : Bytes) :
    (frameLengths buf = (0, 0) ∨ ∃ len < 126, frameLengths buf = (6, len) ∧ buf.length < 6) ∨
      ∃ (h : WsHeader) (t : Bytes), buf = h.bytes ++ t := by
  match buf with
  | [] => exact .inl (.inl rfl)
  | [_] => exact .inl (.inl rfl)
  | b :: c :: rest =>
      have hlow : (c &&& 127).toNat < 128 := by
        rw [show c = UInt8.ofNat c.toNat by simp, and_low c.toNat_lt]
        omega
      have hmask : maskLen (b :: c :: rest) = 0 ∨ maskLen (b :: c :: rest) = 4 := by
        rw [maskLen]
        split <;> simp
      have hlength : (b :: c :: rest).length = rest.length + 2 := rfl
      rw [frameLengths, hlength, if_pos (by omega)]
      simp only [List.getD_cons_succ, List.getD_cons_zero]
      generalize hm : maskLen (b :: c :: rest) = m at hmask
      obtain hinline | htwo | height :
          (c &&& 127).toNat < 126 ∨ (c &&& 127).toNat = 126 ∨ (c &&& 127).toNat = 127 := by omega
      · by_cases hthere : m ≤ rest.length
        · exact .inr (exists_bytes .inline rfl hinline rfl (by rw [hm, LengthField.width]; omega))
        · by_cases hbuf : m ≤ rest.length + 2
          · rw [if_pos ⟨hinline, hbuf⟩]
            have hfour : m = 4 := by omega
            exact .inl (.inr ⟨_, hinline, by rw [hfour], by omega⟩)
          · rw [if_neg (by omega), if_neg (by omega), if_neg (by omega)]
            exact .inl (.inl rfl)
      · by_cases hthere : 2 + m ≤ rest.length
        · have htake : (rest.take 2).length = 2 := List.length_take_of_le (by omega)
          refine .inr (exists_bytes .two htwo.symm ?_ (bigEndianBytes_bigEndian htake) (by rwa [hm]))
          have hlt := bigEndian_lt (rest.take 2)
          rwa [htake] at hlt
        · rw [if_neg (by omega), if_neg (by omega), if_neg (by omega)]
          exact .inl (.inl rfl)
      · by_cases hthere : 8 + m ≤ rest.length
        · have htake : (rest.take 8).length = 8 := List.length_take_of_le (by omega)
          refine .inr (exists_bytes .eight height.symm ?_ (bigEndianBytes_bigEndian htake) (by rwa [hm]))
          have hlt := bigEndian_lt (rest.take 8)
          rwa [htake] at hlt
        · rw [if_neg (by omega), if_neg (by omega), if_neg (by omega)]
          exact .inl (.inl rfl)

/-! ## 4. Delivering -/

theorem length_lt (h : WsHeader) : h.length < 2 ^ 64 := by
  refine h.fits.trans_le ?_
  cases h.field <;> simp [LengthField.limit]

theorem deliver_short {buf : Bytes} (hshort : frameLengths buf = (0, 0) ∨
    ∃ len < 126, frameLengths buf = (6, len) ∧ buf.length < 6) : deliverWebsocketFrame buf = .more := by
  rcases hshort with hzero | ⟨len, hlen, hsix, hbuf⟩
  · simp [deliverWebsocketFrame, hzero]
  · have hmod : (6 + len) % 2 ^ 64 = 6 + len := Nat.mod_eq_of_lt (by omega)
    simp only [deliverWebsocketFrame, hsix, hmod]
    rw [if_neg (by omega)]

/-- What is delivered of a header and what follows it. -/
theorem deliver_bytes (h : WsHeader) (t : Bytes) :
    deliverWebsocketFrame (h.bytes ++ t) =
      if h.total < 2 ^ 64 then
        if h.length ≤ t.length then
          .item ⟨h.bits, h.length, some (if h.mask = [] then t.take h.length
            else applyMask h.mask (t.take h.length))⟩ h.total
        else .more
      else if h.total = 2 ^ 64 then .more
      else if h.mask = [] then .item ⟨h.bits, h.length, none⟩ (h.total - 2 ^ 64)
      else .fault := by
  have hbytes := h.length_bytes
  have hmask : (0 < h.mask.length) = ¬ h.mask = [] := by
    rw [List.length_pos_iff]
  have hwidth : h.field.width ≤ 8 := by cases h.field <;> simp [LengthField.width]
  have hlimit := h.length_lt
  have hfour : h.mask.length ≤ 4 := by rcases h.mask_length with hnil | hfour <;> simp [*]
  simp only [deliverWebsocketFrame, frameLengths_bytes, maskLen_bytes, slice_mask, slice_content,
    getD_zero, hmask, ite_not, List.length_append]
  rw [show h.bytes.length + h.length = h.total from rfl]
  have htotal : h.total = h.bytes.length + h.length := rfl
  by_cases hlt : h.total < 2 ^ 64
  · rw [Nat.mod_eq_of_lt hlt, if_pos hlt, if_pos hlt]
    by_cases hthere : h.length ≤ t.length
    · rw [if_pos hthere, if_pos (by omega)]
    · rw [if_neg hthere, if_neg (by omega)]
  · have hmod : h.total % 2 ^ 64 = h.total - 2 ^ 64 := by omega
    rw [hmod, if_neg hlt, if_neg hlt]
    by_cases hstall : h.total = 2 ^ 64
    · rw [if_pos hstall, if_neg (by omega)]
    · rw [if_neg hstall, if_pos (by omega)]

/-- More behind a header is more behind it. -/
theorem deliver_append {buf : Bytes} (hmore : deliverWebsocketFrame buf ≠ .more) (u : Bytes) :
    deliverWebsocketFrame (buf ++ u) = deliverWebsocketFrame buf := by
  rcases short_or_exists_bytes buf with hshort | ⟨h, t, rfl⟩
  · exact absurd (deliver_short hshort) hmore
  · rw [List.append_assoc]
    rw [deliver_bytes] at hmore ⊢
    rw [deliver_bytes]
    split
    · rename_i hlt
      rw [if_pos hlt] at hmore
      by_cases hthere : h.length ≤ t.length
      · rw [if_pos hthere, if_pos (by simp; omega), List.take_append_of_le_length hthere]
      · rw [if_neg hthere] at hmore
        exact absurd rfl hmore
    · rfl

/-- What is not delivered in full had a header with which the length wraps. -/
theorem exists_of_item {buf : Bytes} {r : WsRequest} {n : Nat}
    (hitem : deliverWebsocketFrame buf = .item r n) (hcontent : r.content = none) :
    ∃ (h : WsHeader) (t : Bytes), buf = h.bytes ++ t ∧ 2 ^ 64 < h.total := by
  rcases short_or_exists_bytes buf with hshort | ⟨h, t, rfl⟩
  · rw [deliver_short hshort] at hitem
    cases hitem
  · refine ⟨h, t, rfl, ?_⟩
    rw [deliver_bytes] at hitem
    split at hitem
    · split at hitem
      · cases hitem
        cases hcontent
      · cases hitem
    · split at hitem
      · cases hitem
      · omega

theorem exists_of_fault {buf : Bytes} (hfault : deliverWebsocketFrame buf = .fault) :
    ∃ (h : WsHeader) (t : Bytes), buf = h.bytes ++ t ∧ 2 ^ 64 < h.total := by
  rcases short_or_exists_bytes buf with hshort | ⟨h, t, rfl⟩
  · rw [deliver_short hshort] at hfault
    cases hfault
  · refine ⟨h, t, rfl, ?_⟩
    rw [deliver_bytes] at hfault
    split at hfault
    · split at hfault <;> cases hfault
    · split at hfault
      · cases hfault
      · omega

end WsHeader

/-- What has arrived decides what is delivered of it. -/
theorem incremental_deliver : Incremental deliverWebsocketFrame where
  nil := rfl
  size := by
    intro buf r n hitem
    rcases WsHeader.short_or_exists_bytes buf with hshort | ⟨h, t, rfl⟩
    · rw [WsHeader.deliver_short hshort] at hitem
      cases hitem
    · have hbytes := h.length_bytes
      have htotal : h.total = h.bytes.length + h.length := rfl
      have hlimit := h.length_lt
      rw [WsHeader.deliver_bytes] at hitem
      rw [List.length_append]
      split at hitem
      · split at hitem
        · cases hitem
          omega
        · cases hitem
      · split at hitem
        · cases hitem
        · split at hitem
          · cases hitem
            omega
          · cases hitem
  item hitem t := by rw [WsHeader.deliver_append (by simp [hitem]), hitem]
  fault hfault t := by rw [WsHeader.deliver_append (by simp [hfault]), hfault]

/-! ## 5. Frames -/

/-- Applying the mask again takes it off. -/
theorem applyMask_applyMask (mask content : Bytes) : applyMask mask (applyMask mask content) = content := by
  refine List.ext_getElem (by simp [applyMask]) fun i _ _ => ?_
  simp [applyMask]

@[simp] theorem length_applyMask (mask content : Bytes) :
    (applyMask mask content).length = content.length := by simp [applyMask]

namespace WsFrame

variable (f : WsFrame)

@[simp] theorem length_masked : f.masked.length = f.length := by
  rw [masked, ← f.length_content]
  split <;> simp

theorem length_wire : f.wire.length = f.total := by
  rw [wire, List.length_append, length_masked]
  rfl

/-- A frame is delivered as soon as it is all there. -/
theorem deliver_wire (t : Bytes) :
    deliverWebsocketFrame (f.wire ++ t) = .item f.request f.wire.length := by
  have htake : (f.masked ++ t).take f.length = f.masked := by
    rw [← f.length_masked, List.take_left]
  rw [length_wire, wire, List.append_assoc, WsHeader.deliver_bytes, if_pos f.total_lt,
    if_pos (by simp), htake, request, masked]
  by_cases hmask : f.mask = []
  · rw [if_pos hmask, if_pos hmask]
  · rw [if_neg hmask, if_neg hmask, applyMask_applyMask]

theorem codes_wire : Codes deliverWebsocketFrame f.wire f.request := by
  have := f.deliver_wire []
  rwa [List.append_nil] at this

/-- What is delivered in full was a frame. -/
theorem exists_of_deliver {buf : Bytes} {r : WsRequest} {n : Nat}
    (hitem : deliverWebsocketFrame buf = .item r n) (hcontent : r.content ≠ none) :
    ∃ (f : WsFrame) (t : Bytes), buf = f.wire ++ t ∧ r = f.request ∧ n = f.wire.length := by
  rcases WsHeader.short_or_exists_bytes buf with hshort | ⟨h, t, rfl⟩
  · rw [WsHeader.deliver_short hshort] at hitem
    cases hitem
  · rw [WsHeader.deliver_bytes] at hitem
    split at hitem
    · rename_i htotal
      split at hitem
      · rename_i hthere
        have htake : (t.take h.length).length = h.length := List.length_take_of_le hthere
        let content := if h.mask = [] then t.take h.length else applyMask h.mask (t.take h.length)
        let f : WsFrame := ⟨h, content, by simp only [content]; split <;> simp [htake], htotal⟩
        have hmasked : f.masked = t.take h.length := by
          simp only [masked, f, content]
          split
          · rfl
          · exact applyMask_applyMask _ _
        have hwire : f.wire = h.bytes ++ t.take h.length := by rw [wire, hmasked]
        refine ⟨f, t.drop h.length, ?_, ?_, ?_⟩
        · rw [hwire, List.append_assoc, List.take_append_drop]
        · cases hitem
          rfl
        · cases hitem
          rw [length_wire]
      · cases hitem
    · split at hitem
      · cases hitem
      · split at hitem
        · cases hitem
          exact absurd rfl hcontent
        · cases hitem

/-- Requests delivered in full are those of the frames the bytes are made of. -/
theorem splits_iff {s rest : Bytes} {requests : List WsRequest} :
    Splits deliverWebsocketFrame s requests rest ∧ (∀ r ∈ requests, r.content ≠ none) ↔
      ∃ frames : List WsFrame, requests = frames.map request ∧ s = frames.flatMap wire ++ rest := by
  refine Iff.intro ?_ ?_
  · intro h
    obtain ⟨hs, hfull⟩ := h
    induction hs with
    | done s => exact ⟨[], rfl, rfl⟩
    | @item s bs rest r n hitem _ ih =>
        obtain ⟨f, t, rfl, rfl, rfl⟩ := exists_of_deliver hitem (hfull r List.mem_cons_self)
        obtain ⟨frames, rfl, hdrop⟩ := ih fun r hr => hfull r (List.mem_cons_of_mem _ hr)
        rw [List.drop_left] at hdrop
        exact ⟨f :: frames, rfl, by rw [hdrop, List.flatMap_cons, List.append_assoc]⟩
  · intro ⟨frames, hrequests, hs⟩
    subst hrequests hs
    refine ⟨?_, ?_⟩
    · have hcodes : List.Forall₂ (Codes deliverWebsocketFrame) (frames.map wire) (frames.map request) := by
        simp [List.forall₂_map_left_iff, List.forall₂_map_right_iff, codes_wire]
      have := Intake.splits_flatten incremental_deliver hcodes (.done rest)
      rwa [List.append_nil] at this
    · intro r hr
      obtain ⟨f, -, rfl⟩ := List.mem_map.mp hr
      simp [request]

end WsFrame

end Domoio
