import Domoio.Crypto

/-
  File:      Domoio/Connection.lean
  Subject:   One device connection: its fields, its socket and its sending side
             (include/domoio_server.h; src/device_connection.cc, lines 1 to 131).

  The socket side of the asio library is part of the state: `outstanding` counts the `async_write`
  operations whose handler has not run, `written` lists the buffers given to `async_write`. Two
  fields are history and read by no code: `sent` (the messages given to `send`, with the mode they
  were sent in) and `requests` (the strings handed to `dispatch_request`).
-/

namespace Domoio

open Lib

/-- `CLIENT_BUFFER_MAX_LENGTH`. -/
def clientBufferMaxLength : Nat := 1024

/-- Identities: a connection by its number, a device state by its address. -/
abbrev ConnId := Nat
abbrev Addr := Nat

/-- `DeviceConnection`. The pointer `device` is `none` for NULL. -/
structure DeviceConnection where
  device : Option Addr := none
  blockCipher : Option BlockCipher := none
  sessionStarted : Bool := false
  loggedIn : Bool := false
  /-- The handle of the last slot connected: the device state it is in, and its number. -/
  deviceSignalsConn : Option (Addr × Nat) := none
  messageQueue : List Bytes := []
  /-- The socket is connected and `close` has not been called on it. -/
  socketOpen : Bool := false
  /-- The read ended with EOF or a reset. -/
  disconnected : Bool := false
  outstanding : Nat := 0
  written : List Bytes := []
  sent : List (Bool × Bytes) := []
  requests : List Bytes := []

namespace DeviceConnection

/-- A connection is open until the server closes it or the peer ends it. -/
def isOpen (c : DeviceConnection) : Bool := c.socketOpen && !c.disconnected

/-- The bytes `asio::buffer(stream.str(), length)` holds in `write`: the stream took the front
    message up to its NUL and the newline, the declared length counts the whole message. -/
def writeBuffer (front : Bytes) : Bytes :=
  let stream := cString front ++ [10]
  let length := front.length + 1
  stream.take length

/-- `DeviceConnection::write`. -/
def write (c : DeviceConnection) : DeviceConnection :=
  match c.messageQueue with
  | [] => c
  | front :: _ =>
      { c with outstanding := c.outstanding + 1, written := c.written ++ [writeBuffer front] }

/-- `DeviceConnection::send_raw` of a message with its length. -/
def sendRaw (c : DeviceConnection) (msg : Bytes) : DeviceConnection :=
  let writeInProgress := !c.messageQueue.isEmpty
  let c := { c with messageQueue := c.messageQueue ++ [msg] }
  if writeInProgress then c else c.write

/-- `DeviceConnection::send_crypted`: the encoding is sent with its length, the NUL included. -/
def sendCrypted (c : DeviceConnection) (str : Bytes) : DeviceConnection := c.sendRaw (hexEncode str)

/-- `DeviceConnection::send`. -/
def send (c : DeviceConnection) (msg : Bytes) : DeviceConnection :=
  let c := { c with sent := c.sent ++ [(c.sessionStarted, msg)] }
  if c.sessionStarted then c.sendCrypted msg else c.sendRaw msg

/-- `DeviceConnection::handle_write` after a write that succeeded. -/
def handleWrite (c : DeviceConnection) : DeviceConnection :=
  let c := { c with outstanding := c.outstanding - 1, messageQueue := c.messageQueue.tail }
  if c.messageQueue.isEmpty then c else c.write

/-- `DeviceConnection::start` on the accepted socket, up to its first read. -/
def start (c : DeviceConnection) : DeviceConnection :=
  { c with socketOpen := true }.send (ascii "Hey, protocol=1.0")

/-! What sending leaves alone. -/

section Frame

variable (c : DeviceConnection) (msg : Bytes)

theorem write_frame : c.write = { c with outstanding := c.write.outstanding, written := c.write.written } := by
  unfold write
  split <;> rfl

theorem sendRaw_frame : c.sendRaw msg =
    { c with messageQueue := (c.sendRaw msg).messageQueue,
             outstanding := (c.sendRaw msg).outstanding, written := (c.sendRaw msg).written } := by
  unfold sendRaw
  dsimp only
  split
  · rfl
  · rw [write_frame]

/-- `send` touches the queue, the socket and the history only. -/
theorem send_frame : c.send msg =
    { c with messageQueue := (c.send msg).messageQueue, outstanding := (c.send msg).outstanding,
             written := (c.send msg).written, sent := c.sent ++ [(c.sessionStarted, msg)] } := by
  unfold send
  dsimp only
  split
  · rw [sendCrypted, sendRaw_frame]
  · rw [sendRaw_frame]

@[simp] theorem send_device : (c.send msg).device = c.device := by rw [send_frame]
@[simp] theorem send_sessionStarted : (c.send msg).sessionStarted = c.sessionStarted := by
  rw [send_frame]
@[simp] theorem send_loggedIn : (c.send msg).loggedIn = c.loggedIn := by rw [send_frame]
@[simp] theorem send_socketOpen : (c.send msg).socketOpen = c.socketOpen := by rw [send_frame]
@[simp] theorem send_disconnected : (c.send msg).disconnected = c.disconnected := by rw [send_frame]
@[simp] theorem send_requests : (c.send msg).requests = c.requests := by rw [send_frame]
@[simp] theorem send_sent : (c.send msg).sent = c.sent ++ [(c.sessionStarted, msg)] := by
  rw [send_frame]
@[simp] theorem send_isOpen : (c.send msg).isOpen = c.isOpen := by simp [isOpen]

theorem handleWrite_frame : c.handleWrite =
    { c with messageQueue := c.messageQueue.tail, outstanding := c.handleWrite.outstanding,
             written := c.handleWrite.written } := by
  unfold handleWrite
  dsimp only
  split
  · rfl
  · rw [write_frame]

end Frame

end DeviceConnection

end Domoio
