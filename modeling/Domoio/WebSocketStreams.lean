import Mathlib.Algebra.Order.BigOperators.Group.List
import Domoio.WebSocketFrames

/-
  File:      Domoio/WebSocketStreams.lean
  Subject:   The bytes of a web socket, however they are cut (vendor/mongoose/mongoose.c).

  `frames_delivered_exact`: what arrives is delivered as the frames it is made of. `frames_sound_iff`: all
  goes well exactly while no header declares a length with which the frame's own length wraps; behind one
  that makes it exactly 2^64 nothing is delivered any more. `writes_read_exact`: what `mg_websocket_write`
  sends is read back as it was given, exactly if every frame is shorter than an `int` can say.
-/

namespace Domoio

open Lib

/-! ## 1. Frames -/

/-- Bytes that no frame begins, and no header whose frame's length wraps. -/
structure Unfinished (buf : Bytes) : Prop where
  no_frame : ∀ (f : WsFrame) (t : Bytes), buf ≠ f.wire ++ t
  no_wrap : ∀ (h : WsHeader) (t : Bytes), buf = h.bytes ++ t → h.total ≤ 2 ^ 64

theorem deliver_more_iff (buf : Bytes) : deliverWebsocketFrame buf = .more ↔ Unfinished buf := by
  refine ⟨fun hmore => ⟨?_, ?_⟩, fun hunfinished => ?_⟩
  · intro f t hbuf
    rw [hbuf, f.deliver_wire] at hmore
    cases hmore
  · intro h t hbuf
    by_contra htotal
    rw [hbuf, h.deliver_bytes, if_neg (by omega), if_neg (by omega)] at hmore
    split at hmore <;> cases hmore
  · cases hdecoded : deliverWebsocketFrame buf with
    | more => rfl
    | item r n =>
        by_cases hcontent : r.content = none
        · obtain ⟨h, t, hbuf, htotal⟩ := WsHeader.exists_of_item hdecoded hcontent
          exact absurd (hunfinished.no_wrap h t hbuf) (by omega)
        · obtain ⟨f, t, hbuf, -, -⟩ := WsFrame.exists_of_deliver hdecoded hcontent
          exact absurd hbuf (hunfinished.no_frame f t)
    | fault =>
        obtain ⟨h, t, hbuf, htotal⟩ := WsHeader.exists_of_fault hdecoded
        exact absurd (hunfinished.no_wrap h t hbuf) (by omega)

/-- However the bytes are cut: the requests delivered, all of them in full, are those of the frames the
    bytes are made of, and what is left is not a frame yet. -/
theorem frames_delivered_exact (segments : List Bytes) (requests : List WsRequest) (pending : Bytes) :
    (Intake.received deliverWebsocketFrame segments = .live requests pending ∧
        ∀ r ∈ requests, r.content ≠ none) ↔
      ∃ frames : List WsFrame, requests = frames.map WsFrame.request ∧
        segments.flatten = frames.flatMap WsFrame.wire ++ pending ∧ Unfinished pending := by
  rw [Intake.received_eq incremental_deliver, Intake.drained_live_iff incremental_deliver,
    deliver_more_iff, and_right_comm, WsFrame.splits_iff]
  refine ⟨fun ⟨⟨frames, hrequests, hs⟩, hpending⟩ => ⟨frames, hrequests, hs, hpending⟩,
    fun ⟨frames, hrequests, hs, hpending⟩ => ⟨⟨frames, hrequests, hs⟩, hpending⟩⟩

/-! ## 2. Lengths that wrap -/

/-- A header is there, and nothing is delivered whatever follows. -/
def Blocked (buf : Bytes) : Prop :=
  ∃ (h : WsHeader) (t : Bytes), buf = h.bytes ++ t ∧ ∀ u, deliverWebsocketFrame (buf ++ u) = .more

theorem total_of_blocked {h : WsHeader} {t : Bytes}
    (hmore : ∀ u, deliverWebsocketFrame (h.bytes ++ t ++ u) = .more) : h.total = 2 ^ 64 := by
  have hzeros := hmore (List.replicate h.length 0)
  rw [List.append_assoc, h.deliver_bytes] at hzeros
  split at hzeros
  · rw [if_pos (by simp)] at hzeros
    cases hzeros
  · split at hzeros
    · assumption
    · split at hzeros <;> cases hzeros

theorem blocked_of_total {h : WsHeader} (htotal : h.total = 2 ^ 64) (t : Bytes) :
    Blocked (h.bytes ++ t) := by
  refine ⟨h, t, rfl, fun u => ?_⟩
  rw [List.append_assoc, h.deliver_bytes, if_neg (by omega), if_pos htotal]

/-- The frames before the first request that is not delivered in full, and the header of that one. -/
theorem exists_wrap_of_splits {s rest : Bytes} {requests : List WsRequest}
    (hs : Splits deliverWebsocketFrame s requests rest) (hcontent : ∃ r ∈ requests, r.content = none) :
    ∃ (frames : List WsFrame) (h : WsHeader) (t : Bytes),
      s = frames.flatMap WsFrame.wire ++ (h.bytes ++ t) ∧ 2 ^ 64 ≤ h.total := by
  induction hs with
  | done s =>
      obtain ⟨r, hr, -⟩ := hcontent
      cases hr
  | @item s bs rest r n hitem _ ih =>
      by_cases hnone : r.content = none
      · obtain ⟨h, t, hs, htotal⟩ := WsHeader.exists_of_item hitem hnone
        exact ⟨[], h, t, hs, htotal.le⟩
      · obtain ⟨f, t, rfl, rfl, rfl⟩ := WsFrame.exists_of_deliver hitem hnone
        have hlater : ∃ r ∈ bs, r.content = none := by
          obtain ⟨r, hr, hr'⟩ := hcontent
          rcases List.mem_cons.mp hr with rfl | hr
          · exact absurd hr' hnone
          · exact ⟨r, hr, hr'⟩
        obtain ⟨frames, h, u, hdrop, htotal⟩ := ih hlater
        rw [List.drop_left] at hdrop
        exact ⟨f :: frames, h, u, by rw [hdrop, List.flatMap_cons, List.append_assoc], htotal⟩

/-- What has been drained is kept. -/
theorem mem_of_drained {items requests : List WsRequest} {s pending : Bytes}
    (hlive : Intake.drained deliverWebsocketFrame items s = .live requests pending) :
    ∀ r ∈ items, r ∈ requests := by
  obtain ⟨bs, rest, hsplits, hmore | hfault⟩ := Intake.exists_splits incremental_deliver s
  · rw [Intake.drained_splits incremental_deliver hsplits, Intake.drained_more hmore] at hlive
    cases hlive
    exact fun r hr => List.mem_append_left _ hr
  · rw [Intake.drained_splits incremental_deliver hsplits,
      Intake.drained_fault incremental_deliver hfault] at hlive
    cases hlive

/-- Whatever has been delivered so far has been delivered in full, and something may still come. -/
def Sound (segments : List Bytes) : Prop :=
  ∃ requests pending, Intake.received deliverWebsocketFrame segments = .live requests pending ∧
    (∀ r ∈ requests, r.content ≠ none) ∧ ¬ Blocked pending

/-- All goes well, no mask is applied outside of the buffer, no content is said to lie outside of it and
    nothing waits for ever, exactly if no header behind whole frames makes the length wrap. -/
theorem frames_sound_iff (segments : List Bytes) :
    Sound segments ↔
      ¬ ∃ (frames : List WsFrame) (h : WsHeader) (t : Bytes),
        segments.flatten = frames.flatMap WsFrame.wire ++ (h.bytes ++ t) ∧ 2 ^ 64 ≤ h.total := by
  rw [Sound, Intake.received_eq incremental_deliver]
  refine ⟨fun ⟨requests, pending, hlive, hfull, hblocked⟩ ⟨frames, h, t, hs, htotal⟩ => ?_,
    fun hwrap => ?_⟩
  · have hsplits := (WsFrame.splits_iff.mpr ⟨frames, rfl, hs⟩).1
    rw [Intake.drained_splits incremental_deliver hsplits, List.nil_append] at hlive
    by_cases hequal : h.total = 2 ^ 64
    · have hmore : deliverWebsocketFrame (h.bytes ++ t) = .more := by
        rw [h.deliver_bytes, if_neg (by omega), if_pos hequal]
      rw [Intake.drained_more hmore] at hlive
      cases hlive
      exact hblocked (blocked_of_total hequal t)
    · by_cases hmask : h.mask = []
      · have hitem : deliverWebsocketFrame (h.bytes ++ t) =
            .item ⟨h.bits, h.length, none⟩ (h.total - 2 ^ 64) := by
          rw [h.deliver_bytes, if_neg (by omega), if_neg hequal, if_pos hmask]
        rw [Intake.drained_item incremental_deliver hitem] at hlive
        exact hfull _ (mem_of_drained hlive _ (List.mem_append_right _ List.mem_cons_self)) rfl
      · have hfault : deliverWebsocketFrame (h.bytes ++ t) = .fault := by
          rw [h.deliver_bytes, if_neg (by omega), if_neg hequal, if_neg hmask]
        rw [Intake.drained_fault incremental_deliver hfault] at hlive
        cases hlive
  · obtain ⟨requests, rest, hsplits, hend⟩ := Intake.exists_splits incremental_deliver segments.flatten
    have hfull : ∀ r ∈ requests, r.content ≠ none := by
      intro r hr hnone
      exact hwrap (exists_wrap_of_splits hsplits ⟨r, hr, hnone⟩)
    obtain ⟨frames, -, hs⟩ := WsFrame.splits_iff.mp ⟨hsplits, hfull⟩
    rw [Intake.drained_splits incremental_deliver hsplits, List.nil_append]
    rcases hend with hmore | hfault
    · refine ⟨requests, rest, Intake.drained_more hmore, hfull, ?_⟩
      intro hblocked
      obtain ⟨h, t, rfl, hnever⟩ := hblocked
      exact hwrap ⟨frames, h, t, hs, (total_of_blocked hnever).ge⟩
    · obtain ⟨h, t, rfl, htotal⟩ := WsHeader.exists_of_fault hfault
      exact absurd ⟨frames, h, t, hs, htotal.le⟩ hwrap

/-! ## 3. What is sent -/

/-- What the handler at the other end is given of a frame sent. -/
def sentRequest (opcode : Nat) (data : Bytes) : WsRequest :=
  ⟨UInt8.ofNat (0x80 + opcode % 16), data.length, some data⟩

/-- The bytes that a call of `mg_websocket_write` adds to `send_iobuf`. -/
def sentBytes (opcode : Nat) (data : Bytes) : Bytes :=
  (({} : WsOutput).mgWebsocketWrite opcode data).sendIobuf

theorem sendIobuf_mgWebsocketWrite (out : WsOutput) (opcode : Nat) (data : Bytes) :
    (out.mgWebsocketWrite opcode data).sendIobuf = out.sendIobuf ++ sentBytes opcode data := by
  simp only [sentBytes, WsOutput.mgWebsocketWrite, WsOutput.mgWrite]
  split
  · simp
  · split <;> split <;> simp

theorem sendIobuf_foldl (sends : List (Nat × Bytes)) (out : WsOutput) :
    (sends.foldl (fun out p => out.mgWebsocketWrite p.1 p.2) out).sendIobuf =
      out.sendIobuf ++ sends.flatMap fun p => sentBytes p.1 p.2 := by
  induction sends generalizing out with
  | nil => simp
  | cons p sends ih => rw [List.foldl_cons, ih, sendIobuf_mgWebsocketWrite, List.append_assoc]; rfl

/-- The shortest header for a content of the length. -/
def shortestHeader (n : Nat) : Nat := if n < 126 then 2 else if n ≤ 0xFFFF then 4 else 10

theorem length_websocketCopy (opcode : Nat) (data : Bytes) :
    (websocketCopy opcode data).length = shortestHeader data.length + data.length := by
  rw [websocketCopy, shortestHeader]
  split
  · simp
    omega
  · split
    · simp
      omega
    · simp
      omega

theorem shortestHeader_le (h : WsHeader) : shortestHeader h.length ≤ h.bytes.length := by
  have hbytes := h.length_bytes
  have hfits := h.fits
  rw [shortestHeader]
  cases hf : h.field <;> simp only [hf, LengthField.limit, LengthField.width] at hbytes hfits <;>
    split_ifs <;> omega

theorem length_sentBytes_le (opcode : Nat) (data : Bytes) :
    (sentBytes opcode data).length ≤ (websocketCopy opcode data).length := by
  simp only [sentBytes, WsOutput.mgWebsocketWrite, WsOutput.mgWrite]
  split
  · simp
  · split <;> split <;> simp

/-- A frame whose length an `int` cannot say is not sent whole. -/
theorem length_sentBytes_lt {opcode : Nat} {data : Bytes}
    (hlong : ¬ (websocketCopy opcode data).length < 2 ^ 31) :
    (sentBytes opcode data).length < (websocketCopy opcode data).length := by
  simp only [sentBytes, WsOutput.mgWebsocketWrite, WsOutput.mgWrite]
  split
  · simp
    omega
  · split <;> split <;> simp <;> omega

theorem sentBytes_eq {opcode : Nat} {data : Bytes}
    (hshort : (websocketCopy opcode data).length < 2 ^ 31) :
    sentBytes opcode data = websocketCopy opcode data := by
  have hlength := length_websocketCopy opcode data
  have hmod : (websocketCopy opcode data).length % 2 ^ 32 = (websocketCopy opcode data).length :=
    Nat.mod_eq_of_lt (by omega)
  simp only [sentBytes, WsOutput.mgWebsocketWrite, WsOutput.mgWrite, hmod]
  rw [if_neg (by omega), if_pos hshort]
  split <;> simp

/-- The two halves of the long length are its bytes. -/
theorem bigEndianBytes_halves {n : Nat} (hn : n < 2 ^ 64) :
    bigEndianBytes 4 (n / 2 ^ 32) ++ bigEndianBytes 4 (n % 2 ^ 32) = bigEndianBytes 8 n := by
  refine bigEndian_injective (by simp) ?_
  rw [bigEndian_append, bigEndian_bigEndianBytes (by omega), bigEndian_bigEndianBytes (by omega),
    bigEndian_bigEndianBytes (by omega), length_bigEndianBytes]
  omega

theorem total_plain_lt (field : LengthField) {n : Nat} (hfits : n < field.limit) (hn : n < 2 ^ 31)
    (bits : UInt8) : (WsHeader.mk bits field n [] hfits (.inl rfl)).total < 2 ^ 64 := by
  have hwidth : field.width ≤ 8 := by cases field <;> simp [LengthField.width]
  simp only [WsHeader.total, WsHeader.length_bytes, List.length_nil]
  omega

/-- A frame without mask. -/
def plainFrame (opcode : Nat) (data : Bytes) (field : LengthField) (hfits : data.length < field.limit)
    (hdata : data.length < 2 ^ 31) : WsFrame where
  bits := UInt8.ofNat (0x80 + opcode % 16)
  field := field
  length := data.length
  mask := []
  fits := hfits
  mask_length := .inl rfl
  content := data
  length_content := rfl
  total_lt := total_plain_lt field hfits hdata _

theorem wire_plainFrame (opcode : Nat) (data : Bytes) (field : LengthField)
    (hfits : data.length < field.limit) (hdata : data.length < 2 ^ 31) :
    (plainFrame opcode data field hfits hdata).wire = UInt8.ofNat (0x80 + opcode % 16) ::
      UInt8.ofNat (field.code data.length) :: (bigEndianBytes field.width data.length ++ data) := by
  simp [plainFrame, WsFrame.wire, WsFrame.masked, WsHeader.bytes, WsHeader.second]

/-- What is put together is a frame with the shortest header. -/
theorem exists_wire_eq (opcode : Nat) {data : Bytes} (hdata : data.length < 2 ^ 31) :
    ∃ f : WsFrame, f.wire = websocketCopy opcode data ∧ f.request = sentRequest opcode data := by
  rw [websocketCopy]
  by_cases hinline : data.length < 126
  · have hfits : data.length < LengthField.inline.limit := hinline
    refine ⟨plainFrame opcode data .inline hfits hdata, ?_, rfl⟩
    rw [wire_plainFrame, if_pos hinline]
    rfl
  · rw [if_neg hinline]
    by_cases htwo : data.length ≤ 0xFFFF
    · have hfits : data.length < LengthField.two.limit := Nat.lt_succ_of_le htwo
      refine ⟨plainFrame opcode data .two hfits hdata, ?_, rfl⟩
      rw [wire_plainFrame, if_pos htwo]
      rfl
    · have hfits : data.length < LengthField.eight.limit := hdata.trans (by decide)
      refine ⟨plainFrame opcode data .eight hfits hdata, ?_, rfl⟩
      rw [wire_plainFrame, if_neg htwo, ← List.append_assoc (bigEndianBytes 4 _),
        bigEndianBytes_halves (by omega)]
      rfl

theorem exists_frames {sends : List (Nat × Bytes)}
    (hshort : ∀ p ∈ sends, (websocketCopy p.1 p.2).length < 2 ^ 31) :
    ∃ frames : List WsFrame, frames.map WsFrame.request = sends.map (fun p => sentRequest p.1 p.2) ∧
      (sends.flatMap fun p => sentBytes p.1 p.2) = frames.flatMap WsFrame.wire := by
  induction sends with
  | nil => exact ⟨[], rfl, rfl⟩
  | cons p sends ih =>
      have hp := hshort p List.mem_cons_self
      have hdata : p.2.length < 2 ^ 31 := by
        rw [length_websocketCopy] at hp
        omega
      obtain ⟨f, hwire, hrequest⟩ := exists_wire_eq p.1 hdata
      obtain ⟨frames, hrequests, hbytes⟩ := ih fun q hq => hshort q (List.mem_cons_of_mem _ hq)
      refine ⟨f :: frames, by simp [hrequest, hrequests], ?_⟩
      rw [List.flatMap_cons, List.flatMap_cons, hbytes, hwire, sentBytes_eq hp]

/-- No frame with the content of a frame sent is shorter. -/
theorem sum_copies_le {frames : List WsFrame} {sends : List (Nat × Bytes)}
    (hrequests : frames.map WsFrame.request = sends.map fun p => sentRequest p.1 p.2) :
    (sends.map fun p => (websocketCopy p.1 p.2).length).sum ≤
      (frames.map fun f => f.wire.length).sum := by
  let least (r : WsRequest) : Nat := shortestHeader r.contentLen + r.contentLen
  have hsends : (sends.map fun p => (websocketCopy p.1 p.2).length) =
      (sends.map fun p => sentRequest p.1 p.2).map least := by
    rw [List.map_map]
    refine List.map_congr_left fun p _ => ?_
    rw [length_websocketCopy]
    rfl
  rw [hsends, ← hrequests, List.map_map]
  refine List.sum_le_sum fun f _ => ?_
  have hheader := shortestHeader_le f.toWsHeader
  rw [f.length_wire]
  exact Nat.add_le_add_right hheader _

/-- However the bytes sent are cut: the other end is given what was sent, in its order, exactly if every
    frame is shorter than 2^31 bytes. -/
theorem writes_read_exact (sends : List (Nat × Bytes)) (segments : List Bytes)
    (hsegments : segments.flatten =
      (sends.foldl (fun out p => out.mgWebsocketWrite p.1 p.2) ({} : WsOutput)).sendIobuf) :
    (∃ pending, Intake.received deliverWebsocketFrame segments =
        .live (sends.map fun p => sentRequest p.1 p.2) pending) ↔
      ∀ p ∈ sends, (websocketCopy p.1 p.2).length < 2 ^ 31 := by
  have hbytes : segments.flatten = sends.flatMap fun p => sentBytes p.1 p.2 := by
    rw [hsegments, sendIobuf_foldl, List.nil_append]
  refine ⟨fun ⟨pending, hlive⟩ => ?_, fun hshort => ?_⟩
  · by_contra hlong
    have hlonger : ∃ p ∈ sends, (sentBytes p.1 p.2).length < (websocketCopy p.1 p.2).length := by
      push Not at hlong
      obtain ⟨p, hp, hle⟩ := hlong
      exact ⟨p, hp, length_sentBytes_lt (by omega)⟩
    have hlt := List.sum_lt_sum (fun p : Nat × Bytes => (sentBytes p.1 p.2).length)
      (fun p => (websocketCopy p.1 p.2).length) (fun p _ => length_sentBytes_le p.1 p.2) hlonger
    rw [Intake.received_eq incremental_deliver, Intake.drained_live_iff incremental_deliver] at hlive
    obtain ⟨frames, hrequests, hs⟩ := WsFrame.splits_iff.mp ⟨hlive.1, by
      intro r hr
      obtain ⟨p, -, rfl⟩ := List.mem_map.mp hr
      simp [sentRequest]⟩
    have hframes := sum_copies_le hrequests.symm
    have hlength := congrArg List.length hs
    rw [hbytes, List.length_append, List.length_flatMap, List.length_flatMap] at hlength
    omega
  · obtain ⟨frames, hrequests, hwire⟩ := exists_frames hshort
    refine ⟨[], ?_⟩
    rw [Intake.received_eq incremental_deliver, Intake.drained_live_iff incremental_deliver]
    refine ⟨(WsFrame.splits_iff.mpr ⟨frames, hrequests.symm, ?_⟩).1, rfl⟩
    rw [hbytes, hwire, List.append_nil]

/-- A text and a ping, in four segments. -/
theorem writes_read_ping : ∃ pending, Intake.received deliverWebsocketFrame
    [[0x81], [2, 0x7b], [0x7d, 0x89], [0]] =
      .live [⟨0x81, 2, some (ascii "\x7b\x7d")⟩, ⟨0x89, 0, some []⟩] pending :=
  (writes_read_exact [(1, ascii "\x7b\x7d"), (9, [])] _ (by decide)).mpr (by decide)

end Domoio
