import Domoio.HttpConnections

/-
  File:      Domoio/HttpStreams.lean
  Subject:   The bytes of a connection to the HTTP server, however they are cut
             (vendor/mongoose/mongoose.c).

  `requests_exact`: requests that follow one another are handled each with its own body exactly if every
  one of them ends where a segment does. `upgrade_exact`: behind the head that asks for a web socket the
  frames are delivered, however all is cut.
-/

namespace Domoio

open Lib

namespace Mongoose

namespace HttpConnection

variable {σ ε : Type} {handler : Handler σ ε} {r : HttpRequest} {events : List HttpEvent} {closing : Bool}
  {server : σ} {p q seg : Bytes} {n : Nat}

/-! ## 1. What has happened -/

theorem events_tryParse (c : HttpConnection σ) : c.tryParse.events = c.events := by
  rw [tryParse]
  split
  · dsimp only
    split
    · split <;> rfl
    · rfl
  · rfl

theorem events_call {c c' : HttpConnection σ} {m : Message}
    (h : c.callRequestHandlerIfDataIsBuffered handler m = .ok c') : c.events <+: c'.events := by
  rw [callRequestHandlerIfDataIsBuffered] at h
  split at h
  · split at h
    · cases h
      exact List.prefix_append _ _
    · cases h
  · split at h
    · dsimp only at h
      split at h
      · cases h
      · cases h
        exact List.prefix_append _ _
      · cases h
        exact List.prefix_append _ _
    · cases h
      exact List.prefix_rfl

/-- What has happened stays. -/
theorem events_receive {c c' : HttpConnection σ} (h : receive handler c seg = .ok c') :
    c.events <+: c'.events := by
  rw [receive] at h
  split at h
  · cases h
    exact List.prefix_rfl
  · rw [onRecvData] at h
    generalize hc : ({ c with
      recvIobuf := c.recvIobuf ++ seg, numBytesRecv := c.numBytesRecv + seg.length } :
        HttpConnection σ).tryParse = d at h
    have hd : d.events = c.events := by rw [← hc, events_tryParse]
    rw [← hd]
    dsimp only at h
    split at h
    · split at h
      · cases h
        exact List.prefix_append _ _
      · split at h
        · cases h
          exact List.prefix_append _ _
        · cases h
          exact List.prefix_rfl
    · split at h
      · cases h
        exact List.prefix_append _ _
      · split at h
        · cases h
          exact List.prefix_append _ _
        · refine List.IsPrefix.trans ?_ (events_call h)
          split
          · exact List.prefix_rfl
          · rw [openLocalEndpoint]
            split
            · exact List.prefix_append _ _
            · exact List.prefix_rfl

theorem events_received {c c' : HttpConnection σ} {segments : List Bytes}
    (h : received handler c segments = .ok c') : c.events <+: c'.events := by
  induction segments generalizing c with
  | nil =>
      cases h
      exact List.prefix_rfl
  | cons seg segments ih =>
      rw [received, List.foldlM_cons] at h
      cases hseg : receive handler c seg with
      | error e =>
          rw [hseg] at h
          cases h
      | ok d =>
          rw [hseg] at h
          exact (events_receive hseg).trans (ih h)

/-! ## 2. Requests -/

/-- Whether the connection is to be closed behind requests: what the last of them says. -/
def closingAfter (closing : Bool) (rs : List HttpRequest) : Bool :=
  rs.foldl (fun _ r => !r.message.shouldKeepAlive) closing

/-- Behind `p` every request ends where a segment does. -/
def Aligned (p : Bytes) (segments : List Bytes) (rs : List HttpRequest) : Prop :=
  ∀ k, 0 < k → k ≤ rs.length → ∃ j, p ++ (segments.take j).flatten = (rs.take k).flatMap HttpRequest.wire

variable {rs : List HttpRequest} {segments : List Bytes}

theorem length_le_flatMap {k : Nat} (hk : 0 < k) :
    r.wire.length ≤ (((r :: rs).take k).flatMap HttpRequest.wire).length := by
  obtain ⟨k, rfl⟩ : ∃ l, k = l + 1 := ⟨k - 1, by omega⟩
  rw [List.take_succ_cons, List.flatMap_cons, List.length_append]
  omega

theorem aligned_cons (hp : p.length < r.wire.length) :
    Aligned p (seg :: segments) (r :: rs) ↔ Aligned (p ++ seg) segments (r :: rs) := by
  refine ⟨fun h k hk hle => ?_, fun h k hk hle => ?_⟩
  · obtain ⟨j, hj⟩ := h k hk hle
    cases j with
    | zero =>
        have hwire : r.wire.length ≤ (((r :: rs).take k).flatMap HttpRequest.wire).length :=
          length_le_flatMap hk
        rw [← hj] at hwire
        simp at hwire
        omega
    | succ j => exact ⟨j, by rw [← hj, List.take_succ_cons, List.flatten_cons, List.append_assoc]⟩
  · obtain ⟨j, hj⟩ := h k hk hle
    exact ⟨j + 1, by rw [← hj, List.take_succ_cons, List.flatten_cons, List.append_assoc]⟩

theorem aligned_wire : Aligned r.wire segments (r :: rs) ↔ Aligned [] segments rs := by
  refine ⟨fun h k _ hle => ?_, fun h k hk hle => ?_⟩
  · obtain ⟨j, hj⟩ := h (k + 1) (by omega) (by simpa using hle)
    rw [List.take_succ_cons, List.flatMap_cons] at hj
    exact ⟨j, List.append_cancel_left hj⟩
  · obtain ⟨k, rfl⟩ : ∃ l, k = l + 1 := ⟨k - 1, by omega⟩
    cases k with
    | zero => exact ⟨0, by simp⟩
    | succ k =>
        obtain ⟨j, hj⟩ := h (k + 1) (by omega) (by simpa using hle)
        exact ⟨j, by rw [List.take_succ_cons, List.flatMap_cons, ← hj, List.nil_append]⟩

theorem not_aligned (hp : r.wire.length < p.length) : ¬ Aligned p segments (r :: rs) := by
  intro h
  obtain ⟨j, hj⟩ := h 1 (by omega) (by simp)
  have hlength := congrArg List.length hj
  simp at hlength
  omega

/-- Nothing comes of empty segments. -/
theorem received_idle (hempty : segments.flatten = []) :
    received handler (before [] events closing server) segments =
      .ok (before [] events closing server) := by
  induction segments with
  | nil => rfl
  | cons seg segments ih =>
      obtain ⟨rfl, hrest⟩ := List.append_eq_nil_iff.mp (by rwa [List.flatten_cons] at hempty)
      rw [received, List.foldlM_cons]
      exact ih hrest

/-- From within a request: the requests are handled one after the other where they are aligned, and
    where they are not one of them is handled with more than its body. -/
theorem received_within {server' : σ}
    (hstream : p ++ segments.flatten = (r :: rs).flatMap HttpRequest.wire)
    (hp : p.length < r.wire.length) (hanswered : HttpRequest.Answered handler (r :: rs) server server') :
    (Aligned p segments (r :: rs) → received handler (within r p events closing server) segments =
        .ok (before [] (events ++ (r :: rs).map HttpRequest.event) (closingAfter closing (r :: rs))
          server')) ∧
      (¬ Aligned p segments (r :: rs) →
        ∀ c, received handler (within r p events closing server) segments = .ok c →
          c.events ≠ events ++ (r :: rs).map HttpRequest.event) := by
  induction segments generalizing r rs p events closing server with
  | nil =>
      have hlength := congrArg List.length hstream
      rw [List.flatten_nil, List.append_nil, List.flatMap_cons, List.length_append] at hlength
      omega
  | cons seg segments ih =>
      rw [List.flatten_cons, ← List.append_assoc] at hstream
      have hcons : received handler (within r p events closing server) (seg :: segments) =
          receive handler (within r p events closing server) seg >>= fun c =>
            received handler c segments := by
        rw [received, List.foldlM_cons]
        rfl
      rw [hcons, aligned_cons hp]
      rcases Nat.lt_trichotomy (p ++ seg).length r.wire.length with hlt | heq | hgt
      · -- the request goes on
        obtain ⟨rest, hrest⟩ : p ++ seg <+: r.wire :=
          List.prefix_of_prefix_length_le ⟨_, hstream⟩ ⟨_, List.flatMap_cons.symm⟩ hlt.le
        have hne : rest ≠ [] := by
          rintro rfl
          rw [List.append_nil] at hrest
          exact hlt.ne (congrArg List.length hrest)
        have hwire : p ++ (seg ++ rest) = r.wire := by rw [← hrest, List.append_assoc]
        rw [receive_unfinished hwire hne]
        exact ih hstream hlt hanswered
      · -- it ends with the segment
        have hwire : p ++ seg = r.wire := by
          rw [List.flatMap_cons] at hstream
          exact (List.append_inj hstream heq).1
        obtain ⟨u, hu, hrest⟩ := hanswered
        have hcomplete : p ++ seg = r.wire ++ [] := by rw [hwire, List.append_nil]
        rw [receive_complete hcomplete, List.append_nil, hu, hwire, aligned_wire]
        rw [hwire, List.flatMap_cons] at hstream
        have hstream := List.append_cancel_left hstream
        have hevents : events ++ (r :: rs).map HttpRequest.event =
            events ++ [.request r.message r.body] ++ rs.map HttpRequest.event := by
          rw [List.append_assoc]
          rfl
        rw [hevents]
        cases rs with
        | nil =>
            have hserver : server' = u := hrest
            refine ⟨fun _ => ?_, fun hnot => absurd (fun k hk hle => ?_) hnot⟩
            · rw [hserver]
              refine (received_idle hstream).trans ?_
              rw [List.map_nil, List.append_nil]
              rfl
            · simp at hle
              omega
        | cons r' rs =>
            have hbegin : before [] (events ++ [.request r.message r.body]) (!r.message.shouldKeepAlive) u =
                within r' [] (events ++ [.request r.message r.body]) (!r.message.shouldKeepAlive) u :=
              within_nil.symm
            simp only [hbegin]
            exact ih hstream r'.wire_ne hrest
      · -- it has ended within the segment
        obtain ⟨extra, hextra⟩ : r.wire <+: p ++ seg :=
          List.prefix_of_prefix_length_le ⟨_, List.flatMap_cons.symm⟩ ⟨_, hstream⟩ hgt.le
        have hne : extra ≠ [] := by
          rintro rfl
          rw [List.append_nil] at hextra
          rw [hextra] at hgt
          omega
        refine ⟨fun h => absurd h (not_aligned hgt), fun _ c hc hevents => ?_⟩
        rw [receive_complete hextra.symm] at hc
        have hprefix : events ++ [HttpEvent.request r.message (r.body ++ extra)] <+: c.events := by
          split at hc
          · cases hc
          · exact events_received hc
          · exact events_received hc
        rw [hevents] at hprefix
        have hhead := (List.prefix_append_right_inj events).mp hprefix
        rw [List.map_cons, List.cons_prefix_cons] at hhead
        have hbody : r.body ++ extra = r.body := by
          have := hhead.1
          rw [HttpRequest.event] at this
          injection this
        exact hne (by simpa using hbody)

/-- From between two requests. -/
theorem received_requests {server' : σ} (hstream : segments.flatten = rs.flatMap HttpRequest.wire)
    (hanswered : HttpRequest.Answered handler rs server server') :
    (Aligned [] segments rs → received handler (before [] [] closing server) segments =
        .ok (before [] (rs.map HttpRequest.event) (closingAfter closing rs) server')) ∧
      (¬ Aligned [] segments rs → ∀ c, received handler (before [] [] closing server) segments = .ok c →
        c.events ≠ rs.map HttpRequest.event) := by
  cases rs with
  | nil =>
      have hserver : server' = server := hanswered
      rw [hserver]
      refine ⟨fun _ => received_idle hstream, fun hnot => absurd (fun k hk hle => ?_) hnot⟩
      simp at hle
      omega
  | cons r rs =>
      have hboth := @received_within σ ε handler r [] closing server [] rs segments server' hstream
        r.wire_ne hanswered
      rwa [within_nil] at hboth

/-- Requests that follow one another on a connection, each of them answered: the handler is called for
    each of them with its own body, and with nothing else, exactly if every one of them ends where a
    segment does; then the connection is as before the first of them, and to be closed if the last of
    them does not keep it. -/
theorem requests_exact (handler : Handler σ ε) (rs : List HttpRequest) (segments : List Bytes)
    (server server' : σ) (hstream : segments.flatten = rs.flatMap HttpRequest.wire)
    (hanswered : HttpRequest.Answered handler rs server server') :
    ((∃ c, received handler (before [] [] false server) segments = .ok c ∧
        c.events = rs.map HttpRequest.event) ↔ Aligned [] segments rs) ∧
      (Aligned [] segments rs → received handler (before [] [] false server) segments =
        .ok (before [] (rs.map HttpRequest.event) (closingAfter false rs) server')) := by
  obtain ⟨haligned, hnot⟩ := @received_requests σ ε handler false server rs segments server' hstream
    hanswered
  refine ⟨⟨fun ⟨c, hc, hevents⟩ => ?_, fun h => ?_⟩, haligned⟩
  · by_contra h
    exact hnot h c hc hevents
  · exact ⟨_, haligned h, rfl⟩

/-! ## 3. Web sockets -/

/-- What a web socket has been delivered so far, and what is left of its bytes. -/
def streaming (h : HttpHead) (n : Nat) (closing : Bool) (server : σ) :
    Intake UInt8 WsRequest → Except (HttpFault ε) (HttpConnection σ)
  | .live frames pending =>
      .ok (opened h pending n (.connect h.message :: frames.map .frame) closing server)
  | .faulted _ => .error .overrun

variable {h : HttpHead}

theorem call_websocket (hws : h.message.requestsWebsocket = true) (frames : List WsRequest) :
    (opened h q n (.connect h.message :: frames.map .frame) closing
        server).callRequestHandlerIfDataIsBuffered handler h.message =
      streaming h n closing server ((Intake.drained deliverWebsocketFrame [] q).behind frames) := by
  rw [callRequestHandlerIfDataIsBuffered, if_pos (by exact hws)]
  simp only [opened]
  cases Intake.drained deliverWebsocketFrame [] q with
  | live bs pending => simp [streaming, Intake.behind, opened]
  | faulted bs => rfl

theorem receive_streaming (hws : h.message.requestsWebsocket = true) (intake : Intake UInt8 WsRequest) :
    (streaming h n closing server intake >>= fun c => receive handler c seg) =
      streaming h (n + seg.length) closing server (intake.receive deliverWebsocketFrame seg) := by
  cases intake with
  | live frames pending =>
      show receive handler (opened h pending n (.connect h.message :: frames.map .frame) closing
        server) seg = _
      rw [receive_opened, call_websocket hws, Intake.receive, ← Intake.drained_items incremental_deliver]
  | faulted bs => rfl

theorem received_streaming (hws : h.message.requestsWebsocket = true) (intake : Intake UInt8 WsRequest) :
    (streaming h n closing server intake >>= fun c => received handler c segments) =
      streaming h (n + segments.flatten.length) closing server
        (segments.foldl (Intake.receive deliverWebsocketFrame) intake) := by
  induction segments generalizing n intake with
  | nil =>
      show (streaming h n closing server intake >>= fun c => pure c) = _
      rw [bind_pure]
      rfl
  | cons seg segments ih =>
      have hcons : (streaming h n closing server intake >>= fun c => received handler c (seg :: segments)) =
          (streaming h n closing server intake >>= fun c => receive handler c seg) >>= fun c =>
            received handler c segments := by
        rw [bind_assoc]
        rfl
      rw [hcons, receive_streaming hws, ih, List.foldl_cons, List.flatten_cons, List.length_append,
        Nat.add_assoc]

/-- From within the head that asks for a web socket. -/
theorem received_upgrade {content : Bytes} (hws : h.message.requestsWebsocket = true)
    (hstream : p ++ segments.flatten = h.head ++ content) (hp : p.length < h.head.length) :
    received handler (before p [] closing server) segments =
      streaming h (h.head.length + content.length) closing server
        (Intake.drained deliverWebsocketFrame [] content) := by
  induction segments generalizing p with
  | nil =>
      have hlength := congrArg List.length hstream
      simp at hlength
      omega
  | cons seg segments ih =>
      rw [List.flatten_cons, ← List.append_assoc] at hstream
      have hcons : received handler (before p [] closing server) (seg :: segments) =
          receive handler (before p [] closing server) seg >>= fun c => received handler c segments := by
        rw [received, List.foldlM_cons]
        rfl
      rw [hcons]
      by_cases hlt : (p ++ seg).length < h.head.length
      · obtain ⟨rest, hrest⟩ : p ++ seg <+: h.head :=
          List.prefix_of_prefix_length_le ⟨_, hstream⟩ ⟨_, rfl⟩ hlt.le
        have hne : rest ≠ [] := by
          rintro rfl
          rw [List.append_nil] at hrest
          exact hlt.ne (congrArg List.length hrest)
        have hhead : h.head = p ++ (seg ++ rest) := by rw [← hrest, List.append_assoc]
        rw [receive_before hhead hne]
        exact ih hstream hlt
      · obtain ⟨q, hq⟩ : h.head <+: p ++ seg :=
          List.prefix_of_prefix_length_le ⟨_, rfl⟩ ⟨_, hstream⟩ (by omega)
        rw [← hq, List.append_assoc] at hstream
        have hcontent := List.append_cancel_left hstream
        have hcall : receive handler (before p [] closing server) seg =
            streaming h (h.head.length + q.length) closing server
              (Intake.drained deliverWebsocketFrame [] q) := by
          have hempty : ∀ i : Intake UInt8 WsRequest, i.behind [] = i := by
            intro i
            cases i <;> rfl
          rw [receive_head hq.symm, hws, ← hempty (Intake.drained deliverWebsocketFrame [] q)]
          exact call_websocket hws []
        rw [hcall, received_streaming hws, Intake.foldl_receive incremental_deliver, hcontent,
          ← hcontent, List.length_append, Nat.add_assoc]

/-- However all is cut: behind the head that asks for a web socket the handler is told of it, and what
    follows is delivered as the frames it is made of, or brings the server down. -/
theorem upgrade_exact (handler : Handler σ ε) (h : HttpHead)
    (hws : h.message.requestsWebsocket = true) (segments : List Bytes) (content : Bytes)
    (closing : Bool) (server : σ) (hstream : segments.flatten = h.head ++ content) :
    (∀ frames pending,
        received handler (before [] [] closing server) segments =
            .ok (opened h pending (h.head.length + content.length)
              (.connect h.message :: frames.map .frame) closing server) ↔
          Splits deliverWebsocketFrame content frames pending ∧ Unfinished pending) ∧
      (received handler (before [] [] closing server) segments = .error .overrun ↔
        ∃ frames rest, Splits deliverWebsocketFrame content frames rest ∧
          deliverWebsocketFrame rest = .fault) := by
  have hpos := List.length_pos_iff.mpr h.isHead.2
  have hreceived : received handler (before [] [] closing server) segments =
      streaming h (h.head.length + content.length) closing server
        (Intake.drained deliverWebsocketFrame [] content) := received_upgrade hws hstream hpos
  rw [hreceived]
  refine ⟨fun frames pending => ?_, ?_⟩
  · rw [← deliver_more_iff, ← Intake.drained_live_iff incremental_deliver]
    cases Intake.drained deliverWebsocketFrame [] content with
    | live frames' pending' =>
        refine ⟨fun heq => ?_, fun heq => by cases heq; rfl⟩
        have hopened := Except.ok.inj heq
        have hpending : pending' = pending := congrArg HttpConnection.recvIobuf hopened
        have hframes : frames'.map HttpEvent.frame = frames.map HttpEvent.frame :=
          List.tail_eq_of_cons_eq (congrArg HttpConnection.events hopened)
        have hinjective : Function.Injective HttpEvent.frame := fun _ _ h => HttpEvent.frame.inj h
        rw [hpending, List.map_injective_iff.mpr hinjective hframes]
    | faulted bs => simp [streaming]
  · cases hdrained : Intake.drained deliverWebsocketFrame [] content with
    | live frames pending =>
        refine ⟨fun h => (by cases h), fun ⟨frames, rest, hsplits, hfault⟩ => ?_⟩
        have := (Intake.drained_faulted_iff incremental_deliver).mpr ⟨rest, hsplits, hfault⟩
        rw [hdrained] at this
        cases this
    | faulted frames =>
        obtain ⟨rest, hsplits, hfault⟩ := (Intake.drained_faulted_iff incremental_deliver).mp hdrained
        exact ⟨fun _ => ⟨frames, rest, hsplits, hfault⟩, fun _ => rfl⟩

end HttpConnection

/-! ## 4. Two connections -/

/-- A request without headers, and one with a body. -/
def plainRequests : List HttpRequest :=
  [{ head := ascii "GET /a HTTP/1.1\r\n\r\n"
     message := ⟨ascii "GET", ascii "/a", ascii "1.1", none, 0, []⟩
     isHead := ⟨by decide +kernel, by decide +kernel⟩
     fits := by decide +kernel
     parsed := by decide +kernel
     uri_valid := by decide +kernel
     version_valid := by decide +kernel
     body := []
     plain := by decide +kernel
     length_body := by decide +kernel },
   { head := ascii "PUT /b HTTP/1.1\r\nContent-Length: 2\r\n\r\n"
     message := ⟨ascii "PUT", ascii "/b", ascii "1.1", none, 0, [(ascii "Content-Length", ascii "2")]⟩
     isHead := ⟨by decide +kernel, by decide +kernel⟩
     fits := by decide +kernel
     parsed := by decide +kernel
     uri_valid := by decide +kernel
     version_valid := by decide +kernel
     body := ascii "ok"
     plain := by decide +kernel
     length_body := by decide +kernel }]

/-- The head of a request for a web socket. -/
def upgradeHead : HttpHead where
  head := ascii "GET /api/events HTTP/1.1\r\nSec-WebSocket-Version: 13\r\nSec-WebSocket-Key: x\r\n\r\n"
  message := ⟨ascii "GET", ascii "/api/events", ascii "1.1", none, 0,
    [(ascii "Sec-WebSocket-Version", ascii "13"), (ascii "Sec-WebSocket-Key", ascii "x")]⟩
  isHead := ⟨by decide +kernel, by decide +kernel⟩
  fits := by decide +kernel
  parsed := by decide +kernel
  uri_valid := by decide +kernel
  version_valid := by decide +kernel

namespace HttpConnection

/-- A handler that counts the requests. -/
def counting : Handler Nat Empty := fun _ _ n => .ok (true, n + 1)

/-- The second request in two segments, behind the first. -/
theorem requests_exact_two : received counting (before [] [] false 0)
    [ascii "GET /a HTTP/1.1\r\n\r\n", ascii "PUT /b HTTP/1.1\r\nContent-L",
      ascii "ength: 2\r\n\r\nok"] =
      .ok (before [] (plainRequests.map HttpRequest.event) false 2) := by
  refine (requests_exact counting plainRequests _ 0 2 (by decide +kernel)
    ⟨1, rfl, 2, rfl, rfl⟩).2 ?_
  intro k hk hle
  obtain rfl | rfl : k = 1 ∨ k = 2 := by
    have : plainRequests.length = 2 := rfl
    omega
  · exact ⟨1, by decide +kernel⟩
  · exact ⟨3, by decide +kernel⟩

/-- Half a frame comes with the head. -/
theorem upgrade_exact_ping : received counting (before [] [] false 0)
    [upgradeHead.head ++ [0x89], [0]] =
      .ok (opened upgradeHead [] (upgradeHead.head.length + 2)
        [.connect upgradeHead.message, .frame ⟨0x89, 0, some []⟩] false 0) := by
  refine ((upgrade_exact counting upgradeHead (by decide +kernel) [upgradeHead.head ++ [0x89], [0]]
    [0x89, 0] false 0 (by simp)).1 [⟨0x89, 0, some []⟩] []).mpr ⟨?_, ?_⟩
  · have hitem : deliverWebsocketFrame [0x89, 0] = .item ⟨0x89, 0, some []⟩ 2 := rfl
    exact .item hitem (.done _)
  · exact (deliver_more_iff []).mp rfl

end HttpConnection

end Mongoose

end Domoio
