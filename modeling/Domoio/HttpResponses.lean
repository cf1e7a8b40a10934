import Domoio.HttpMessages
import Domoio.Lib.Chunked
import Domoio.WebSocketFrames

/-
  File:      Domoio/HttpResponses.lean
  Subject:   What is sent for a request that is answered (include/httpd.h, vendor/mongoose/mongoose.c).

  Data are sent in one chunk behind a head that says 200, whatever status `response_data` is called with
  (`responseData_sent`). `responses_exact`: what is sent for answers one after the other is read as
  these answers exactly if none of them is empty: the chunk of an empty one is an end, and the end that is
  sent behind it is taken for the beginning of the next response.
-/

namespace Domoio

open Lib

namespace Mongoose

/-! ## 1. The code -/

/-- What there is of a connection for a response: `status_code`, the flag `MG_HEADERS_SENT`, and the bytes
    that go out. -/
structure HttpOutput extends WsOutput where
  statusCode : Int32 := 0
  headersSent : Bool := false

/-- The texts of `status_code_to_str`. -/
def statusTexts : List (Int32 × String) :=
  [(100, "Continue"), (101, "Switching Protocols"), (102, "Processing"),
    (200, "OK"), (201, "Created"), (202, "Accepted"), (203, "Non-Authoritative Information"),
    (204, "No Content"), (205, "Reset Content"), (206, "Partial Content"), (207, "Multi-Status"),
    (208, "Already Reported"), (226, "IM Used"),
    (300, "Multiple Choices"), (301, "Moved Permanently"), (302, "Found"), (303, "See Other"),
    (304, "Not Modified"), (305, "Use Proxy"), (306, "Switch Proxy"), (307, "Temporary Redirect"),
    (308, "Permanent Redirect"),
    (400, "Bad Request"), (401, "Unauthorized"), (402, "Payment Required"), (403, "Forbidden"),
    (404, "Not Found"), (405, "Method Not Allowed"), (406, "Not Acceptable"),
    (407, "Proxy Authentication Required"), (408, "Request Timeout"), (409, "Conflict"), (410, "Gone"),
    (411, "Length Required"), (412, "Precondition Failed"), (413, "Payload Too Large"),
    (414, "URI Too Long"), (415, "Unsupported Media Type"), (416, "Requested Range Not Satisfiable"),
    (417, "Expectation Failed"), (418, "I'm a teapot"), (422, "Unprocessable Entity"), (423, "Locked"),
    (424, "Failed Dependency"), (426, "Upgrade Required"), (428, "Precondition Required"),
    (429, "Too Many Requests"), (431, "Request Header Fields Too Large"),
    (451, "Unavailable For Legal Reasons"),
    (500, "Internal Server Error"), (501, "Not Implemented"), (502, "Bad Gateway"),
    (503, "Service Unavailable"), (504, "Gateway Timeout"), (505, "HTTP Version Not Supported"),
    (506, "Variant Also Negotiates"), (507, "Insufficient Storage"), (508, "Loop Detected"),
    (510, "Not Extended"), (511, "Network Authentication Required")]

/-- `status_code_to_str`. -/
def statusCodeToStr (statusCode : Int32) : String := (statusTexts.lookup statusCode).getD "Server Error"

/-- The first line of a response. -/
def statusLine (statusCode : Int32) : Bytes :=
  ascii "HTTP/1.1 " ++ (ascii (toString statusCode.toInt) ++ (32 :: ascii (statusCodeToStr statusCode) ++ lineEnd))

namespace HttpOutput

/-- `mg_write` and `mg_printf`. -/
def write (out : HttpOutput) (buf : Bytes) : HttpOutput := { out with toWsOutput := out.mgWrite buf }

/-- `mg_send_status`. -/
def mgSendStatus (out : HttpOutput) (status : Int32) : HttpOutput :=
  if out.statusCode = 0 then { out with statusCode := status }.write (statusLine status) else out

/-- `mg_send_header`. -/
def mgSendHeader (out : HttpOutput) (name v : Bytes) : HttpOutput :=
  let out := if out.statusCode = 0 then { out with statusCode := 200 }.write (statusLine 200) else out
  out.write (name ++ (ascii ": " ++ (v ++ lineEnd)))

/-- `terminate_headers`. -/
def terminateHeaders (out : HttpOutput) : HttpOutput :=
  if out.headersSent then out
  else
    let out := (out.mgSendHeader (ascii "Transfer-Encoding") (ascii "chunked")).write lineEnd
    { out with headersSent := true }

/-- `write_chunk`; its `int` is printed as an unsigned number. -/
def writeChunk (out : HttpOutput) (buf : Bytes) : HttpOutput :=
  ((out.write (sizeText (buf.length % 2 ^ 32) ++ lineEnd)).write buf).write lineEnd

/-- `mg_send_data`. -/
def mgSendData (out : HttpOutput) (data : Bytes) : HttpOutput := out.terminateHeaders.writeChunk data

/-- `Request::response_data`. -/
def responseData (out : HttpOutput) (data : Bytes) (status : Int32) : HttpOutput :=
  (out.mgSendData data).mgSendStatus status

/-- What `call_request_handler` does once a request is answered: `write_terminating_chunk`, and
    `close_local_endpoint`. -/
def callRequestHandler (out : HttpOutput) : HttpOutput :=
  let out := if out.headersSent then out.write (ascii "0\r\n\r\n") else out
  { out with statusCode := 0, headersSent := false }

end HttpOutput

/-! ## 2. What is sent -/

/-- The head that data are sent with. -/
def okHead : Bytes := ascii "HTTP/1.1 200 OK\r\nTransfer-Encoding: chunked\r\n\r\n"

/-- The bytes of data that are sent: `mg_send_data` takes the length as an `int`. -/
def sentData (data : Bytes) : Bytes :=
  if data.length % 2 ^ 32 < 2 ^ 31 then data.take (data.length % 2 ^ 32) else []

theorem sentData_short {data : Bytes} (h : data.length < 2 ^ 31) : sentData data = data := by
  have hmod : data.length % 2 ^ 32 = data.length := Nat.mod_eq_of_lt (by omega)
  rw [sentData, hmod, if_pos h, List.take_length]

namespace HttpOutput

/-- More bytes go out. -/
def append (out : HttpOutput) (buf : Bytes) : HttpOutput := { out with sendIobuf := out.sendIobuf ++ buf }

@[simp] theorem append_append (out : HttpOutput) (a b : Bytes) :
    (out.append a).append b = out.append (a ++ b) := by
  rw [append, append, append, List.append_assoc]

@[simp] theorem append_nil (out : HttpOutput) : out.append [] = out := by
  rw [append, List.append_nil]

@[simp] theorem append_statusCode (out : HttpOutput) (buf : Bytes) :
    (out.append buf).statusCode = out.statusCode := rfl

@[simp] theorem append_headersSent (out : HttpOutput) (buf : Bytes) :
    (out.append buf).headersSent = out.headersSent := rfl

theorem write_eq (out : HttpOutput) (buf : Bytes) : out.write buf = out.append (sentData buf) := by
  rw [write, WsOutput.mgWrite, append, sentData]
  split
  · rfl
  · rw [List.append_nil]

theorem write_short {out : HttpOutput} {buf : Bytes} (h : buf.length < 2 ^ 31) :
    out.write buf = out.append buf := by
  rw [write_eq, sentData_short h]

/-- The first data of a response are sent behind the head. -/
theorem terminateHeaders_fresh {out : HttpOutput} (hstatus : out.statusCode = 0)
    (hheaders : out.headersSent = false) :
    out.terminateHeaders = { out.append okHead with statusCode := 200, headersSent := true } := by
  have hline : (statusLine 200).length < 2 ^ 31 := by decide +kernel
  have hheader : (ascii "Transfer-Encoding" ++ (ascii ": " ++ (ascii "chunked" ++ lineEnd))).length <
      2 ^ 31 := by decide
  have hend : lineEnd.length < 2 ^ 31 := by decide
  have hhead : statusLine 200 ++ (ascii "Transfer-Encoding" ++ (ascii ": " ++ (ascii "chunked" ++
      lineEnd)) ++ lineEnd) = okHead := by decide +kernel
  rw [terminateHeaders, hheaders, if_neg Bool.false_ne_true, mgSendHeader, if_pos hstatus,
    write_short hline, write_short hheader, write_short hend, append_append, ← hhead]
  simp only [append, List.append_assoc]

theorem writeChunk_eq (out : HttpOutput) (data : Bytes) :
    out.writeChunk data = out.append (sizeText (data.length % 2 ^ 32) ++
      (lineEnd ++ (sentData data ++ lineEnd))) := by
  have hsize : (sizeText (data.length % 2 ^ 32) ++ lineEnd).length < 2 ^ 31 := by
    have hlt : data.length % 2 ^ 32 < 16 ^ 8 := Nat.mod_lt _ (by decide)
    have hlength := length_sizeText 7 hlt
    have hend : lineEnd.length = 2 := rfl
    rw [List.length_append]
    omega
  have hend : lineEnd.length < 2 ^ 31 := by decide
  rw [writeChunk, write_short hsize, write_short hend, write_eq]
  simp only [append_append, List.append_assoc]

end HttpOutput

/-- What goes out for data, behind the head. -/
def sentChunks (data : Bytes) : Bytes :=
  sizeText (data.length % 2 ^ 32) ++ (lineEnd ++ (sentData data ++ (lineEnd ++ lastChunk)))

/-- Whatever status an answer is sent with, it is 200 that goes out. -/
theorem responseData_sent {out : HttpOutput} (hstatus : out.statusCode = 0)
    (hheaders : out.headersSent = false) (data : Bytes) (status : Int32) :
    (out.responseData data status).callRequestHandler = out.append (okHead ++ sentChunks data) := by
  have hlast : ascii "0\r\n\r\n" = lastChunk := lastChunk_eq.symm
  have hshort : lastChunk.length < 2 ^ 31 := by
    rw [lastChunk_eq]
    decide
  have hsent : ({ out.append okHead with statusCode := 200, headersSent := true } :
      HttpOutput).statusCode ≠ 0 := by
    show (200 : Int32) ≠ 0
    decide
  rw [HttpOutput.responseData, HttpOutput.mgSendData, HttpOutput.terminateHeaders_fresh hstatus hheaders,
    HttpOutput.writeChunk_eq, HttpOutput.mgSendStatus, HttpOutput.append_statusCode, if_neg hsent,
    HttpOutput.callRequestHandler, HttpOutput.append_headersSent, if_pos rfl, hlast,
    HttpOutput.write_short hshort, HttpOutput.append_append, sentChunks]
  simp only [HttpOutput.append, List.append_assoc, hstatus, hheaders]

/-- What goes out for answers one after the other. -/
theorem replies_sent {out : HttpOutput} (hstatus : out.statusCode = 0)
    (hheaders : out.headersSent = false) (replies : List (Bytes × Int32)) :
    replies.foldl (fun out r => (out.responseData r.1 r.2).callRequestHandler) out =
      out.append (replies.flatMap fun r => okHead ++ sentChunks r.1) := by
  induction replies generalizing out with
  | nil => exact out.append_nil.symm
  | cons r replies ih =>
      have hfirst := responseData_sent hstatus hheaders r.1 r.2
      have hrest := @ih (out.append (okHead ++ sentChunks r.1)) hstatus hheaders
      rw [List.foldl_cons, hfirst, hrest, HttpOutput.append_append, List.flatMap_cons]

/-! ## 3. What is read -/

/-- A response with its content in chunks: the head, as far as its empty line, in which `parse_http_message`
    reads the status, and the chunks behind it. -/
def IsResponse (w : Bytes) (response : Int32 × Bytes) : Prop :=
  ∃ head coded m, w = head ++ coded ∧ IsHead head ∧ parseHttpMessage head = some m ∧
    m.requestMethod = ascii "HTTP/1.1" ∧ m.statusCode = response.1 ∧
    m.mgGetHeader (ascii "Transfer-Encoding") = some (ascii "chunked") ∧ Chunked coded response.2

theorem isHead_unique {h h' s s' : Bytes} (hh : IsHead h) (hh' : IsHead h') (heq : h ++ s = h' ++ s') :
    h = h' := by
  have hlength : (h.length : Int) = h'.length := by
    rw [← getRequestLen_head hh s, heq, getRequestLen_head hh' s']
  exact (List.append_inj heq (by exact_mod_cast hlength)).1

theorem textFormat_isResponse : TextFormat IsResponse := by
  refine ⟨fun response hempty => ?_, fun hw hw' heq => ?_⟩
  · obtain ⟨head, coded, m, hw, hhead, -⟩ := hempty
    exact hhead.2 (List.append_eq_nil_iff.mp hw.symm).1
  · obtain ⟨head, coded, m, rfl, hhead, hparsed, -, hstatus, -, hcoded⟩ := hw
    obtain ⟨head', coded', m', rfl, hhead', hparsed', -, hstatus', -, hcoded'⟩ := hw'
    rw [List.append_assoc, List.append_assoc] at heq
    have hsame := isHead_unique hhead hhead' heq
    subst hsame
    have hmessage : m = m' := Option.some.inj (hparsed.symm.trans hparsed')
    subst hmessage
    obtain ⟨rfl, hcontent⟩ := hcoded.unique hcoded' (List.append_cancel_left heq)
    exact ⟨rfl, Prod.ext (hstatus.symm.trans hstatus') hcontent⟩

theorem isResponse_okHead {coded content : Bytes} (h : Chunked coded content) :
    IsResponse (okHead ++ coded) (200, content) := by
  have hparsed : (parseHttpMessage okHead).map (fun m => (m.requestMethod, m.statusCode,
      m.mgGetHeader (ascii "Transfer-Encoding"))) =
        some (ascii "HTTP/1.1", 200, some (ascii "chunked")) := by decide +kernel
  obtain ⟨m, hm, hfields⟩ := Option.map_eq_some_iff.mp hparsed
  simp only [Prod.mk.injEq] at hfields
  exact ⟨okHead, coded, m, rfl, ⟨by decide +kernel, by decide⟩, hm, hfields.1, hfields.2.1,
    hfields.2.2, h⟩

/-- No response begins with the end of another one. -/
theorem not_isResponse_lastChunk {w s t : Bytes} {response : Int32 × Bytes} (hw : IsResponse w response) :
    lastChunk ++ s ≠ w ++ t := by
  obtain ⟨head, coded, m, rfl, hhead, hparsed, hmethod, -⟩ := hw
  intro heq
  have hlast : IsHead lastChunk := by
    rw [lastChunk_eq]
    exact ⟨by decide +kernel, by decide⟩
  rw [List.append_assoc] at heq
  have hsame := isHead_unique hlast hhead heq
  have hnone : parseHttpMessage lastChunk = none := by
    rw [lastChunk_eq]
    decide +kernel
  rw [← hsame, hnone] at hparsed
  cases hparsed

theorem sentChunks_short {data : Bytes} (h : data.length < 2 ^ 31) :
    sentChunks data = chunkText data ++ lastChunk := by
  have hmod : data.length % 2 ^ 32 = data.length := Nat.mod_eq_of_lt (by omega)
  rw [sentChunks, sentData_short h, hmod, chunkText]
  simp only [List.append_assoc]

/-- What goes out for answers is read as these answers exactly if none of them is empty. -/
theorem texts_replies (replies : List (Bytes × Int32)) (hshort : ∀ r ∈ replies, r.1.length < 2 ^ 31) :
    Texts IsResponse (replies.flatMap fun r => okHead ++ sentChunks r.1)
        (replies.map fun r => (200, r.1)) ↔
      ∀ r ∈ replies, r.1 ≠ [] := by
  induction replies with
  | nil => exact ⟨fun _ r hr => absurd hr List.not_mem_nil, fun _ => .nil⟩
  | cons r replies ih =>
      have hrest := ih fun r' hr' => hshort r' (List.mem_cons_of_mem _ hr')
      rw [List.forall_mem_cons, ← hrest, List.flatMap_cons, List.map_cons,
        sentChunks_short (hshort r List.mem_cons_self)]
      by_cases hempty : r.1 = []
      · refine ⟨fun htexts => ?_, fun h => absurd hempty h.1⟩
        rw [hempty, chunkText_nil, ← List.append_assoc, List.append_assoc (okHead ++ lastChunk),
          textFormat_isResponse.texts_append (isResponse_okHead chunked_lastChunk)] at htexts
        obtain ⟨contents, -, htexts⟩ := htexts
        -- the end that is sent behind the empty chunk begins no response
        generalize hstream : lastChunk ++ (replies.flatMap fun r => okHead ++ sentChunks r.1) = stream
          at htexts
        cases htexts with
        | nil => exact absurd (List.append_eq_nil_iff.mp hstream).1 (by simp [lastChunk_eq])
        | cons hw _ => exact absurd hstream (not_isResponse_lastChunk hw)
      · have hchunked := chunked_chunkText hempty chunked_lastChunk
        rw [List.append_nil] at hchunked
        rw [textFormat_isResponse.texts_append (isResponse_okHead hchunked)]
        refine ⟨fun ⟨contents, heq, htexts⟩ => ⟨hempty, ?_⟩, fun h => ⟨_, rfl, h.2⟩⟩
        rwa [List.tail_eq_of_cons_eq heq]

/-- Answers are sent one after the other, each with a status: a client reads these answers and nothing
    else, each with status 200, exactly if none of them is empty. -/
theorem responses_exact (replies : List (Bytes × Int32)) (hshort : ∀ r ∈ replies, r.1.length < 2 ^ 31) :
    (∀ responses, Texts IsResponse
        (replies.foldl (fun out r => (out.responseData r.1 r.2).callRequestHandler)
          ({} : HttpOutput)).sendIobuf responses ↔ responses = replies.map fun r => (200, r.1)) ↔
      ∀ r ∈ replies, r.1 ≠ [] := by
  have hsent : (replies.foldl (fun out r => (out.responseData r.1 r.2).callRequestHandler)
      ({} : HttpOutput)).sendIobuf = replies.flatMap fun r => okHead ++ sentChunks r.1 := by
    rw [replies_sent rfl rfl]
    exact List.nil_append _
  rw [hsent, ← texts_replies replies hshort]
  exact ⟨fun h => (h _).mpr rfl, fun h responses => textFormat_isResponse.texts_unique h⟩

/-- An answer, and one that is said not to be found. -/
theorem responses_exact_two : Texts IsResponse ([(ascii "OK", 200), (ascii "no", 404)].foldl
    (fun out r => (out.responseData r.1 r.2).callRequestHandler) ({} : HttpOutput)).sendIobuf
      [(200, ascii "OK"), (200, ascii "no")] :=
  ((responses_exact [(ascii "OK", 200), (ascii "no", 404)] (by decide)).mpr (by decide) _).mpr rfl

end Mongoose

end Domoio
