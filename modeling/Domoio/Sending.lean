import Domoio.Lib.Machine
import Domoio.Lib.Outbox
import Domoio.Lib.Terminated
import Domoio.Connection

/-
  File:      Domoio/Sending.lean
  Subject:   The outgoing stream of a connection.

  The message queue of a connection is an outbox of the strings `send` stores; what is written of a
  string is its frame. The stored hex string holds its NUL, the stream insertion stops at it, and
  the declared length is one too long: the three cancel (`writeBuffer_stored`). Lengths are natural
  numbers: the `int`s of the code are taken to hold them.
-/

namespace Domoio

open Lib

namespace DeviceConnection

/-! ## 1. Frames -/

/-- The string `send` stores for a message, by the mode it is sent in. -/
def stored (p : Bool × Bytes) : Bytes := if p.1 then hexEncode p.2 else p.2

/-- What a device is to receive of a message: the message, or its hex encoding, and a newline. -/
def outFrame (p : Bool × Bytes) : Bytes := (if p.1 then hexText p.2 else p.2) ++ [10]

/-- The concatenation of the frames. -/
def streamOf (sent : List (Bool × Bytes)) : Bytes := (sent.map outFrame).flatten

/-- The buffer written for a stored message is its frame. -/
theorem writeBuffer_stored {p : Bool × Bytes} (h : p.1 = false → NulFree p.2) :
    writeBuffer (stored p) = outFrame p := by
  obtain ⟨started, msg⟩ := p
  cases started with
  | false =>
      show (cString msg ++ [10]).take (msg.length + 1) = msg ++ [10]
      rw [cString_of_nulFree (h rfl), List.take_of_length_le (by simp)]
  | true =>
      show (cString (hexEncode msg) ++ [10]).take ((hexEncode msg).length + 1) = hexText msg ++ [10]
      rw [cString_hexEncode, length_hexEncode, List.take_of_length_le (by simp)]

/-! ## 2. The connection's outbox -/

/-- The sending side of a connection. -/
def outbox (c : DeviceConnection) : Outbox Bytes Bytes where
  queue := c.messageQueue
  outstanding := c.outstanding
  written := c.written
  sent := c.sent.map stored

theorem outbox_sendRaw (c : DeviceConnection) (p : Bool × Bytes) :
    ({ c with sent := c.sent ++ [p] }.sendRaw (stored p)).outbox =
      c.outbox.enqueue writeBuffer (stored p) := by
  unfold sendRaw Outbox.enqueue outbox
  cases hq : c.messageQueue with
  | nil => simp [write, Outbox.start]
  | cons front rest => simp

/-- `send` queues the stored message. -/
theorem outbox_send (c : DeviceConnection) (msg : Bytes) :
    (c.send msg).outbox = c.outbox.enqueue writeBuffer (stored (c.sessionStarted, msg)) := by
  rw [← outbox_sendRaw]
  unfold send stored
  by_cases hs : c.sessionStarted = true
  · simp only [hs, if_true]
    rfl
  · simp only [hs]
    rfl

/-- `handle_write` completes the write under way. -/
theorem outbox_handleWrite (c : DeviceConnection) :
    c.handleWrite.outbox = c.outbox.complete writeBuffer := by
  unfold handleWrite Outbox.complete outbox
  cases hq : c.messageQueue.tail with
  | nil => simp
  | cons front rest => simp [write, Outbox.start]

/-! ## 3. Runs -/

/-- What happens to the sending side: a message is sent, a write completes, a session starts or is
    given up. -/
inductive SendAction where
  | send (msg : Bytes)
  | completed
  | session (started : Bool)

/-- A message in the clear has no NUL; a write completes that was started. -/
def sendEnabled (c : DeviceConnection) : SendAction → Prop
  | .send msg => c.sessionStarted = false → NulFree msg
  | .completed => 0 < c.outstanding
  | .session _ => True

def sendStep (c : DeviceConnection) : SendAction → Except Empty DeviceConnection
  | .send msg => .ok (c.send msg)
  | .completed => .ok c.handleWrite
  | .session started => .ok { c with sessionStarted := started }

/-- The sending side of a connection as a machine. -/
def sender : Machine DeviceConnection SendAction Empty := ⟨sendEnabled, sendStep⟩

/-- The messages given to `send` in a run, each with its mode. -/
def sends (tr : List (DeviceConnection × SendAction)) : List (Bool × Bytes) :=
  tr.filterMap fun p =>
    match p.2 with
    | .send msg => some (p.1.sessionStarted, msg)
    | _ => none

variable {c : DeviceConnection} {tr : List (DeviceConnection × SendAction)}

/-- Messages sent in the clear have no NUL, and the outbox is consistent. -/
structure SendInv (c : DeviceConnection) : Prop where
  plain : ∀ p ∈ c.sent, p.1 = false → NulFree p.2
  outbox : c.outbox.Consistent writeBuffer

theorem sendInv_step {act : SendAction} {c' : DeviceConnection} (h : c.SendInv)
    (he : sendEnabled c act) (hs : sendStep c act = .ok c') : c'.SendInv := by
  cases act with
  | send msg =>
      cases hs
      refine ⟨?_, ?_⟩
      · intro p hp
        rw [send_sent] at hp
        rcases List.mem_append.mp hp with hp | hp
        · exact h.plain p hp
        · obtain rfl := List.mem_singleton.mp hp
          exact he
      · rw [outbox_send]
        exact h.outbox.enqueue _
  | completed =>
      cases hs
      refine ⟨?_, ?_⟩
      · rw [handleWrite_frame]
        exact h.plain
      · rw [outbox_handleWrite]
        exact h.outbox.complete he
  | session started =>
      cases hs
      exact ⟨h.plain, h.outbox⟩

theorem sendInv_of_run (hrun : sender.Run {} tr c) : c.SendInv :=
  (hrun.invariant_all (J := SendInv) ⟨fun _ hp => (List.not_mem_nil hp).elim, Outbox.consistent_empty⟩
    fun _ _ _ h he hs => sendInv_step h he hs).2

/-- The history of a connection is that of its run. -/
theorem sent_of_run (hrun : sender.Run {} tr c) : c.sent = sends tr := by
  induction hrun with
  | start => rfl
  | @step tr c c' act hrun he hs ih =>
      cases act with
      | send msg =>
          cases hs
          simpa [sends] using ih
      | completed =>
          cases hs
          rw [handleWrite_frame]
          simpa [sends] using ih
      | session started =>
          cases hs
          simpa [sends] using ih

/-- What has been written is the stream of the messages sent first. -/
theorem SendInv.written_eq (h : c.SendInv) :
    c.written.flatten = streamOf (c.sent.take c.written.length) := by
  have hw : c.written = ((c.sent.map stored).take c.written.length).map writeBuffer :=
    h.outbox.written_eq
  have hframes : ∀ sent : List (Bool × Bytes), (∀ p ∈ sent, p.1 = false → NulFree p.2) →
      (sent.map stored).map writeBuffer = sent.map outFrame := by
    intro sent hp
    rw [List.map_map]
    exact List.map_congr_left fun p hmem => writeBuffer_stored (hp p hmem)
  rw [← List.map_take, hframes _ fun p hp => h.plain p (List.mem_of_mem_take hp)] at hw
  rw [streamOf, ← hw]

/-- A stream is cut behind a newline at every frame. -/
theorem streamOf_ends (sent : List (Bool × Bytes)) :
    streamOf sent = [] ∨ ∃ l, streamOf sent = l ++ [10] := by
  rcases List.eq_nil_or_concat sent with rfl | ⟨init, p, rfl⟩
  · exact Or.inl rfl
  · refine Or.inr ⟨streamOf init ++ if p.1 then hexText p.2 else p.2, ?_⟩
    simp [streamOf, outFrame]

/-- The lines of a stream around a message sent in a session: its frame is one line. -/
theorem lines_streamOf (before after : List (Bool × Bytes)) (msg : Bytes) :
    lines 10 (streamOf (before ++ (true, msg) :: after)) =
      lines 10 (streamOf before) ++ (hexText msg ++ [10]) :: lines 10 (streamOf after) := by
  have hstream : streamOf (before ++ (true, msg) :: after) =
      streamOf before ++ (hexText msg ++ 10 :: streamOf after) := by
    simp [streamOf, outFrame]
  have hplain : (10 : UInt8) ∉ hexText msg := fun hmem => (hexText_plain hmem).2 rfl
  rw [hstream, lines_append (streamOf_ends before), lines_terminated hplain]

/-- The line of a message sent in a session decodes to the message. -/
theorem hexDecode_line (msg : Bytes) :
    hexDecode (hexText msg ++ [10]) (hexText msg ++ [10]).length = some msg := by
  refine hexDecode_hexText msg [10] _ ?_ ?_
  · simp
  · simp

/-- The outgoing stream is correct. -/
structure StreamCorrect (c : DeviceConnection) : Prop where
  outstanding_le : c.outstanding ≤ 1
  outstanding_iff : c.outstanding = 1 ↔ c.messageQueue ≠ []
  inOrder : c.written.flatten <+: streamOf c.sent
  quiescent : c.outstanding = 0 → c.written.flatten = streamOf c.sent
  /-- Where the peer splits the stream at the newlines, a message sent in a session is one line, and
      decodes. So it is for the part of the stream that has been written. -/
  recovers : ∀ {n before msg after}, c.sent.take n = before ++ (true, msg) :: after →
    ∃ line, lines 10 (streamOf (c.sent.take n)) =
        lines 10 (streamOf before) ++ line :: lines 10 (streamOf after) ∧
      hexDecode line line.length = some msg

theorem SendInv.streamCorrect (h : c.SendInv) : c.StreamCorrect where
  outstanding_le := h.outbox.outstanding_le
  outstanding_iff := h.outbox.outstanding_eq_one
  inOrder := by
    rw [h.written_eq]
    refine ⟨streamOf (c.sent.drop c.written.length), ?_⟩
    rw [streamOf, streamOf, ← List.flatten_append, ← List.map_append, List.take_append_drop]
    rfl
  quiescent hout := by
    have hlen : c.written.length = c.sent.length := by
      have hw : c.written = (c.sent.map stored).map writeBuffer := h.outbox.written_of_quiescent hout
      rw [hw, List.length_map, List.length_map]
    rw [h.written_eq, hlen, List.take_length]
  recovers {n before msg after} hsplit := by
    rw [hsplit]
    exact ⟨_, lines_streamOf before after msg, hexDecode_line msg⟩

/-- In every run of `send` calls and completed writes the outgoing stream is correct: it is that of
    the messages sent in the run. -/
theorem stream_correct (hrun : sender.Run {} tr c) : c.sent = sends tr ∧ c.StreamCorrect :=
  ⟨sent_of_run hrun, (sendInv_of_run hrun).streamCorrect⟩

/-- Two messages, a session between them, the first write completed. -/
def twoMessages : List SendAction :=
  [.send (ascii "Hey"), .session true, .send (ascii "OK"), .completed]

instance (c : DeviceConnection) (act : SendAction) : Decidable (sender.enabled c act) :=
  match act with
  | .send msg => inferInstanceAs (Decidable (c.sessionStarted = false → NulFree msg))
  | .completed => inferInstanceAs (Decidable (0 < c.outstanding))
  | .session _ => .isTrue trivial

theorem stream_correct_twoMessages : ∃ tr c,
    sender.exec [] {} twoMessages = some (tr, c) ∧ c.outstanding = 1 ∧
      c.sent = [(false, ascii "Hey"), (true, ascii "OK")] ∧ c.StreamCorrect := by
  obtain ⟨⟨tr, c⟩, he⟩ : ∃ r, sender.exec [] {} twoMessages = some r :=
    Option.isSome_iff_exists.mp (by decide)
  have hfinal : (sender.exec [] {} twoMessages).all (fun r => r.2.outstanding = 1 ∧
      r.2.sent = [(false, ascii "Hey"), (true, ascii "OK")]) = true := by decide
  rw [he] at hfinal
  obtain ⟨hout, hsent⟩ := of_decide_eq_true hfinal
  exact ⟨tr, c, he, hout, hsent, (stream_correct (Machine.Run.start.exec he)).2⟩

end DeviceConnection

end Domoio
