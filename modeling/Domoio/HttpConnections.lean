import Domoio.HttpRequests
import Domoio.WebSocketStreams

/-
  File:      Domoio/HttpConnections.lean
  Subject:   A connection to the HTTP server, from the segments it receives to the calls of the handler
             (vendor/mongoose/mongoose.c).

  Of a connection the model keeps what decides when the handler is called and with what. The handler is a
  parameter; where it has not answered, the request is left to the file handling of the library, which is
  not modelled (`elsewhere`). Sections 2 and 3 say what a segment does: nothing before the last byte of a
  head or of a body that is announced (`receive_before`, `receive_unfinished`), and with it the handler is
  called with all that is there (`receive_complete`).
-/

namespace Domoio

open Lib

namespace Mongoose

/-! ## 1. The code -/

/-- The calls of the handler that are of interest, and the errors sent. -/
inductive HttpEvent where
  | request (m : Message) (content : Bytes)
  | error (code : Nat)
  | connect (m : Message)
  | frame (r : WsRequest)

/-- How a connection brings the server down: a mask applied outside of the buffer, or an exception that
    the handler lets out. -/
inductive HttpFault (ε : Type) where
  | overrun
  | raised (e : ε)

/-- `struct connection`: `message` is what has been parsed into `mg_conn`, where `request_len` is
    positive; `endpoint_type` is `EP_USER` or `EP_NONE`. `closing` is the flag the last
    `close_local_endpoint` left: the connection is closed once nothing is left to send, and what is read
    before that is taken as ever. `server` is what the handler works on, `events` is history. -/
structure HttpConnection (σ : Type) where
  recvIobuf : Bytes := []
  numBytesRecv : Nat := 0
  requestLen : Int := 0
  cl : Int := 0
  message : Option Message := none
  endpointUser : Bool := false
  isWebsocket : Bool := false
  closing : Bool := false
  elsewhere : Bool := false
  events : List HttpEvent := []
  server : σ

/-- A handler answers a request or does not, or it lets an exception out. -/
abbrev Handler (σ ε : Type) := Message → Bytes → σ → Except ε (Bool × σ)

/-- `to64` of the header `Content-Length`. -/
def Message.contentLength (m : Message) : Int :=
  match m.mgGetHeader (ascii "Content-Length") with
  | none => 0
  | some value => (strtol 10 (value ++ [0])).getD 0

/-- `should_keep_alive`, at an endpoint of the user. -/
def Message.shouldKeepAlive (m : Message) : Bool :=
  match m.mgGetHeader (ascii "Connection") with
  | some header => header.map lowercase = ascii "keep-alive"
  | none => m.httpVersion = ascii "1.1"

/-- The request of `send_websocket_handshake_if_requested`. -/
def Message.requestsWebsocket (m : Message) : Bool :=
  (m.mgGetHeader (ascii "Sec-WebSocket-Version")).isSome &&
    (m.mgGetHeader (ascii "Sec-WebSocket-Key")).isSome

namespace HttpConnection

variable {σ ε : Type}

/-- `try_parse`. -/
def tryParse (c : HttpConnection σ) : HttpConnection σ :=
  if c.requestLen = 0 then
    let requestLen := getRequestLen c.recvIobuf
    if 0 < requestLen then
      let request := c.recvIobuf.take requestLen.toNat
      let c := { c with recvIobuf := c.recvIobuf.drop requestLen.toNat }
      match parseHttpMessage request with
      | none => { c with requestLen := -1 }
      | some m => { c with requestLen, message := some m, cl := m.contentLength }
    else { c with requestLen }
  else c

/-- `close_local_endpoint`. The call of `on_recv_data` at its end finds an empty buffer. -/
def closeLocalEndpoint (c : HttpConnection σ) : HttpConnection σ :=
  { server := c.server
    events := c.events
    closing := !(c.endpointUser && c.message.any Message.shouldKeepAlive) }

/-- `send_http_error`. -/
def sendHttpError (c : HttpConnection σ) (code : Nat) : HttpConnection σ :=
  closeLocalEndpoint { c with events := c.events ++ [.error code] }

/-- `send_websocket_handshake_if_requested` and `open_local_endpoint` for the user. -/
def openLocalEndpoint (c : HttpConnection σ) (m : Message) : HttpConnection σ :=
  if m.requestsWebsocket then
    { c with isWebsocket := true, endpointUser := true, events := c.events ++ [.connect m] }
  else { c with endpointUser := true }

/-- `call_request_handler_if_data_is_buffered`. The content is all that is in the buffer. -/
def callRequestHandlerIfDataIsBuffered (handler : Handler σ ε) (c : HttpConnection σ) (m : Message) :
    Except (HttpFault ε) (HttpConnection σ) :=
  if c.isWebsocket then
    match Intake.drained deliverWebsocketFrame [] c.recvIobuf with
    | .live frames pending =>
        .ok { c with recvIobuf := pending, events := c.events ++ frames.map .frame }
    | .faulted _ => .error .overrun
  else if c.cl + c.requestLen ≤ c.numBytesRecv then
    let events := c.events ++ [.request m c.recvIobuf]
    match handler m c.recvIobuf c.server with
    | .error e => .error (.raised e)
    | .ok (true, server) => .ok (closeLocalEndpoint { c with events, server })
    | .ok (false, server) => .ok { c with events, server, endpointUser := false, elsewhere := true }
  else .ok c

/-- `on_recv_data`. -/
def onRecvData (handler : Handler σ ε) (c : HttpConnection σ) :
    Except (HttpFault ε) (HttpConnection σ) :=
  let c := c.tryParse
  match c.message with
  | none =>
      if c.requestLen < 0 then .ok (c.sendHttpError 400)
      else if 16384 < c.recvIobuf.length then .ok (c.sendHttpError 413)
      else .ok c
  | some m =>
      if !isValidUri m.uri then .ok (c.sendHttpError 400)
      else if m.httpVersion ≠ ascii "1.0" ∧ m.httpVersion ≠ ascii "1.1" then .ok (c.sendHttpError 505)
      else
        let c := if c.endpointUser then c else c.openLocalEndpoint m
        c.callRequestHandlerIfDataIsBuffered handler m

/-- A segment that `ns_read_from_socket` has read. -/
def receive (handler : Handler σ ε) (c : HttpConnection σ) (segment : Bytes) :
    Except (HttpFault ε) (HttpConnection σ) :=
  if c.elsewhere then .ok c
  else
    onRecvData handler
      { c with
        recvIobuf := c.recvIobuf ++ segment
        numBytesRecv := c.numBytesRecv + segment.length }

/-- Segments, one after the other. -/
def received (handler : Handler σ ε) (c : HttpConnection σ) (segments : List Bytes) :
    Except (HttpFault ε) (HttpConnection σ) :=
  segments.foldlM (receive handler) c

end HttpConnection

/-! ## 2. Heads -/

/-- A head with which nothing is wrong. -/
structure HttpHead where
  head : Bytes
  message : Message
  isHead : IsHead head
  fits : head.length ≤ 16385
  parsed : parseHttpMessage head = some message
  uri_valid : isValidUri message.uri = true
  version_valid : message.httpVersion = ascii "1.0" ∨ message.httpVersion = ascii "1.1"

namespace HttpConnection

variable {σ ε : Type}

/-- The beginning of a head has been received. -/
def before (p : Bytes) (events : List HttpEvent) (closing : Bool) (server : σ) : HttpConnection σ :=
  { recvIobuf := p, numBytesRecv := p.length, events, closing, server }

/-- A head has been parsed: `q` is in the buffer, and `n` bytes have been received. -/
def opened (h : HttpHead) (q : Bytes) (n : Nat) (events : List HttpEvent) (closing : Bool) (server : σ) :
    HttpConnection σ :=
  { recvIobuf := q, numBytesRecv := n, requestLen := h.head.length, cl := h.message.contentLength,
    message := some h.message, endpointUser := true, isWebsocket := h.message.requestsWebsocket,
    events, closing, server }

variable {handler : Handler σ ε} {h : HttpHead} {events : List HttpEvent} {closing : Bool} {server : σ}
  {p q seg rest : Bytes} {n : Nat}

/-- Before the head is all there nothing happens. -/
theorem receive_before (hhead : h.head = p ++ (seg ++ rest)) (hrest : rest ≠ []) :
    receive handler (before p events closing server) seg = .ok (before (p ++ seg) events closing server) := by
  have hlength := congrArg List.length hhead
  simp only [List.length_append] at hlength
  have hpos := List.length_pos_iff.mpr hrest
  have hfits := h.fits
  have hnone : getRequestLen (p ++ seg) = 0 := by
    have hh := h.isHead
    rw [hhead, ← List.append_assoc] at hh
    exact getRequestLen_prefix hh hrest
  simp only [receive, onRecvData, tryParse, before, hnone]
  rw [if_neg (by simp)]
  simp
  omega

theorem tryParse_head {c : HttpConnection σ} (hzero : c.requestLen = 0)
    (hbuf : c.recvIobuf = h.head ++ q) :
    c.tryParse = { c with
      recvIobuf := q, requestLen := h.head.length, message := some h.message,
      cl := h.message.contentLength } := by
  have hlen := getRequestLen_head h.isHead q
  have hpos : (0 : Int) < h.head.length := by
    have := List.length_pos_iff.mpr h.isHead.2
    omega
  rw [tryParse, if_pos hzero, hbuf, hlen]
  simp only [if_pos hpos, Int.toNat_natCast, List.take_left, List.drop_left, h.parsed]

/-- Nothing is wrong with a head that has been parsed. -/
theorem onRecvData_of_tryParse {c : HttpConnection σ} (hparse : c.tryParse.message = some h.message) :
    c.onRecvData handler =
      (if c.tryParse.endpointUser then c.tryParse
        else c.tryParse.openLocalEndpoint h.message).callRequestHandlerIfDataIsBuffered handler
          h.message := by
  have hversion : ¬ (h.message.httpVersion ≠ ascii "1.0" ∧ h.message.httpVersion ≠ ascii "1.1") := by
    intro hne
    rcases h.version_valid with hv | hv
    · exact hne.1 hv
    · exact hne.2 hv
  simp only [onRecvData, hparse, h.uri_valid]
  rw [if_neg (by simp), if_neg hversion]

/-- Where it is, the handler is called if what it announces is there too. -/
theorem receive_head (hhead : p ++ seg = h.head ++ q) :
    receive handler (before p events closing server) seg =
      (opened h q (h.head.length + q.length)
        (events ++ if h.message.requestsWebsocket then [.connect h.message] else []) closing
        server).callRequestHandlerIfDataIsBuffered handler h.message := by
  have hlength := congrArg List.length hhead
  simp only [List.length_append] at hlength
  have hparse := tryParse_head (h := h) (q := q) (c := { before p events closing server with
    recvIobuf := p ++ seg, numBytesRecv := p.length + seg.length }) rfl hhead
  show onRecvData handler { before p events closing server with
    recvIobuf := p ++ seg, numBytesRecv := p.length + seg.length } = _
  rw [onRecvData_of_tryParse (h := h) (by rw [hparse]), hparse, hlength]
  cases hws : h.message.requestsWebsocket <;> simp [openLocalEndpoint, opened, before, hws]

theorem receive_opened :
    receive handler (opened h q n events closing server) seg =
      (opened h (q ++ seg) (n + seg.length) events closing
        server).callRequestHandlerIfDataIsBuffered handler h.message := by
  have hpos := List.length_pos_iff.mpr h.isHead.2
  have hparse : (opened h (q ++ seg) (n + seg.length) events closing server).tryParse =
      opened h (q ++ seg) (n + seg.length) events closing server := by
    have hne : (opened h (q ++ seg) (n + seg.length) events closing server).requestLen ≠ 0 := by
      show (h.head.length : Int) ≠ 0
      omega
    rw [tryParse, if_neg hne]
  show onRecvData handler (opened h (q ++ seg) (n + seg.length) events closing server) = _
  rw [onRecvData_of_tryParse (h := h) (by rw [hparse]; rfl), hparse]
  rfl

end HttpConnection

/-! ## 3. Requests -/

/-- A request that is handled, with a body as long as its head says. -/
structure HttpRequest extends HttpHead where
  body : Bytes
  plain : message.requestsWebsocket = false
  length_body : message.contentLength = body.length

namespace HttpRequest

def wire (r : HttpRequest) : Bytes := r.head ++ r.body

/-- The call of the handler. -/
def event (r : HttpRequest) : HttpEvent := .request r.message r.body

theorem wire_ne (r : HttpRequest) : 0 < r.wire.length := by
  have := List.length_pos_iff.mpr r.isHead.2
  rw [wire, List.length_append]
  omega

/-- The handler answers one request after the other. -/
def Answered {σ ε : Type} (handler : Handler σ ε) : List HttpRequest → σ → σ → Prop
  | [], s, t => t = s
  | r :: rs, s, t => ∃ u, handler r.message r.body s = .ok (true, u) ∧ Answered handler rs u t

end HttpRequest

namespace HttpConnection

variable {σ ε : Type} {handler : Handler σ ε} {r : HttpRequest} {events : List HttpEvent} {closing : Bool}
  {server : σ} {p q seg rest extra : Bytes} {n : Nat}

/-- The beginning of a request has been received. -/
def within (r : HttpRequest) (p : Bytes) (events : List HttpEvent) (closing : Bool) (server : σ) :
    HttpConnection σ :=
  if p.length < r.head.length then before p events closing server
  else opened r.toHttpHead (p.drop r.head.length) p.length events closing server

theorem within_nil : within r [] events closing server = before [] events closing server := by
  have hhead := List.length_pos_iff.mpr r.isHead.2
  rw [within, if_pos (by simpa using hhead)]

/-- What is called once the head is there. -/
theorem receive_within (hhead : p ++ seg = r.head ++ q) :
    receive handler (within r p events closing server) seg =
      (opened r.toHttpHead q (r.head.length + q.length) events closing
        server).callRequestHandlerIfDataIsBuffered handler r.message := by
  have hlength := congrArg List.length hhead
  simp only [List.length_append] at hlength
  by_cases hp : p.length < r.head.length
  · rw [within, if_pos hp, receive_head hhead, r.plain]
    simp
  · have hdrop : p.drop r.head.length ++ seg = q := by
      have := congrArg (List.drop r.head.length) hhead
      rwa [List.drop_append_of_le_length (by omega), List.drop_left] at this
    rw [within, if_neg hp, receive_opened, hdrop, hlength]

/-- The handler is called as soon as the body may be there. -/
theorem call_opened :
    (opened r.toHttpHead q n events closing server).callRequestHandlerIfDataIsBuffered handler r.message =
      if r.wire.length ≤ n then
        match handler r.message q server with
        | .error e => .error (.raised e)
        | .ok (true, server) =>
            .ok (before [] (events ++ [.request r.message q]) (!r.message.shouldKeepAlive) server)
        | .ok (false, server) =>
            .ok { opened r.toHttpHead q n (events ++ [.request r.message q]) closing server with
              endpointUser := false, elsewhere := true }
      else .ok (opened r.toHttpHead q n events closing server) := by
  have hwire : r.wire.length = r.head.length + r.body.length := by
    rw [HttpRequest.wire, List.length_append]
  simp only [callRequestHandlerIfDataIsBuffered, opened, r.plain, r.length_body]
  by_cases hn : r.wire.length ≤ n
  · rw [if_neg (by simp), if_pos (by omega), if_pos hn]
    cases handler r.message q server with
    | error e => rfl
    | ok a => obtain ⟨_ | _, s⟩ := a <;> rfl
  · rw [if_neg (by simp), if_neg (by omega), if_neg hn]

/-- Before its last byte is received a request is not handled. -/
theorem receive_unfinished (hwire : p ++ (seg ++ rest) = r.wire) (hrest : rest ≠ []) :
    receive handler (within r p events closing server) seg =
      .ok (within r (p ++ seg) events closing server) := by
  have hlength := congrArg List.length hwire
  have hpos := List.length_pos_iff.mpr hrest
  simp only [List.length_append] at hlength
  by_cases hp : (p ++ seg).length < r.head.length
  · obtain ⟨rest', hrest'⟩ : p ++ seg <+: r.head := by
      rw [HttpRequest.wire, ← List.append_assoc] at hwire
      exact List.prefix_of_prefix_length_le ⟨rest, hwire⟩ ⟨r.body, rfl⟩ hp.le
    have hne : rest' ≠ [] := by
      rintro rfl
      rw [List.append_nil] at hrest'
      rw [hrest'] at hp
      omega
    rw [List.length_append] at hp
    rw [within, if_pos (by omega), within, if_pos (by simpa using hp)]
    exact receive_before (h := r.toHttpHead) (by rw [← hrest', List.append_assoc]) hne
  · have hhead : p ++ seg = r.head ++ (p ++ seg).drop r.head.length := by
      have hprefix : r.head <+: p ++ seg := by
        rw [HttpRequest.wire, ← List.append_assoc] at hwire
        exact List.prefix_of_prefix_length_le ⟨r.body, rfl⟩ ⟨rest, hwire⟩ (by omega)
      obtain ⟨q, hq⟩ := hprefix
      rw [← hq, List.drop_left]
    rw [receive_within hhead, call_opened, if_neg, within, if_neg hp]
    · rw [← List.length_append, ← hhead]
    · rw [← List.length_append, ← hhead, List.length_append]
      omega

/-- The segment with its last byte ends a request; what else it has is taken for a part of the body. -/
theorem receive_complete (hwire : p ++ seg = r.wire ++ extra) :
    receive handler (within r p events closing server) seg =
      match handler r.message (r.body ++ extra) server with
      | .error e => .error (.raised e)
      | .ok (true, server) =>
          .ok (before [] (events ++ [.request r.message (r.body ++ extra)]) (!r.message.shouldKeepAlive)
            server)
      | .ok (false, server) =>
          .ok { opened r.toHttpHead (r.body ++ extra) (r.head.length + (r.body ++ extra).length)
              (events ++ [.request r.message (r.body ++ extra)]) closing server with
            endpointUser := false, elsewhere := true } := by
  have hhead : p ++ seg = r.head ++ (r.body ++ extra) := by
    rw [hwire, HttpRequest.wire, List.append_assoc]
  rw [receive_within hhead, call_opened, if_pos]
  rw [HttpRequest.wire, List.length_append, List.length_append]
  omega

end HttpConnection

end Mongoose

end Domoio
