import Domoio.Handlers
import Domoio.HttpResponses
import Domoio.HttpStreams
import Domoio.Persistence
import Domoio.Urls

/-
  File:      Domoio/ApiCalls.lean
  Subject:   From the bytes of a connection to the actions of the API (src/httpd/http_server.cc,
             request.cc, vendor/mongoose/mongoose.c).

  An `ApiCall` is an action with the digits for its URL, a method and a body; its text is the request a
  client sends for it. `apiCalls_exact`: calls sent one after the other run the programs of
  their actions, each on its own parameters and its own body, exactly if every text ends where a segment
  does.
-/

namespace Domoio

open Lib

namespace Httpd

/-! ## 1. The handler -/

/-- `Request::method`, as the `is_` predicates tell methods apart. -/
def methodOf (s : Bytes) : Method :=
  if s = ascii "GET" then .get
  else if s = ascii "POST" then .post
  else if s = ascii "PUT" then .put
  else if s = ascii "OPTIONS" then .options
  else if s = ascii "DELETE" then .delete
  else .other

/-- `ev_handler` on a request, and what goes out where an action answers it. The status is the one that
    `parse_http_message` has left. -/
def evHandler (statements : Statements) (c : Cajun) (actions : List (HttpdAction Callback)) :
    Mongoose.Handler (Server × Mongoose.HttpOutput) JsonException := fun m content s =>
  match resolve actions (methodOf m.requestMethod) m.uri content with
  | none => .ok (false, s)
  | some (callback, request) =>
      match callback.run statements c request s.1 with
      | (.ok none, server) => .ok (false, (server, s.2))
      | (.ok (some data), server) =>
          let out := { s.2 with statusCode := m.statusCode }
          .ok (true, (server, (out.responseData data 200).callRequestHandler))
      | (.error e, _) => .error e

/-- It returns what `handle_request` returns, and leaves the server that one leaves. -/
theorem evHandler_eq (statements : Statements) (c : Cajun) (actions : List (HttpdAction Callback))
    (m : Mongoose.Message) (content : Bytes) (s : Server × Mongoose.HttpOutput) :
    (evHandler statements c actions m content s).map (fun r => (r.1, r.2.1)) =
      (handleRequest statements c actions (methodOf m.requestMethod) m.uri content s.1).1.map fun answered =>
        (answered,
          (handleRequest statements c actions (methodOf m.requestMethod) m.uri content s.1).2) := by
  rw [evHandler, handleRequest]
  cases hresolve : resolve actions (methodOf m.requestMethod) m.uri content with
  | none => rfl
  | some r =>
      obtain ⟨callback, request⟩ := r
      dsimp only
      rcases hrun : callback.run statements c request s.1 with ⟨result, server⟩
      cases result with
      | error e =>
          rw [Program.bind_error hrun]
          rfl
      | ok response =>
          rw [Program.bind_ok hrun]
          cases response <;> rfl

/-! ## 2. Calls -/

/-- A call of an action. The path has no two slashes side by side, so there are digits before a slash;
    the head is no longer than what is waited for. -/
structure ApiCall where
  callback : Callback
  slash : Bool
  deviceId : Digits
  id : Digits
  method : Bytes
  method_valid : Mongoose.isValidHttpMethod method = true
  body : Bytes
  body_lt : body.length < 2 ^ 63
  safe : Mongoose.Safe (callback.url slash deviceId.val id.val)
  url_length : (callback.url slash deviceId.val id.val).length ≤ 16000

/-- The characters of a URL. -/
theorem url_chars (callback : Callback) (slash : Bool) (deviceId id : Digits) :
    ∀ c ∈ callback.url slash deviceId.val id.val, isTextChar c = true ∨ isDigit c = true := by
  intro c hc
  rw [← url_paramDigits] at hc
  obtain ⟨s, hs, hc⟩ := List.mem_flatMap.mp hc
  have hwell := callback.template.wellFormed s hs
  cases s with
  | text d =>
      rw [List.mem_singleton.mp hc]
      exact .inl hwell
  | optSlash =>
      cases slash with
      | true =>
          rw [List.mem_singleton.mp hc]
          exact .inl rfl
      | false => exact absurd hc List.not_mem_nil
  | param n => exact .inr ((paramDigits deviceId id n).property c hc)
  | optParam n => exact .inr ((paramDigits deviceId id n).property c hc)

theorem plain_of_url_char {c : UInt8} (h : isTextChar c = true ∨ isDigit c = true) :
    Mongoose.isText c = true ∧ c ≠ 32 ∧ c ≠ 37 ∧ c ≠ 63 ∧ c ≠ 0 ∧ c ≠ 58 := by
  revert h
  obtain ⟨n, hn, rfl⟩ : ∃ n, n < 256 ∧ c = UInt8.ofNat n := ⟨c.toNat, c.toNat_lt, by simp⟩
  revert n
  decide +kernel

theorem length_chars (n : Nat) : ∀ c ∈ ascii n.repr, Mongoose.isText c = true := by
  intro c hc
  exact (plain_of_url_char (.inr ((digitsValue_repr n).2.1 c hc))).1

theorem length_head (n : Nat) :
    (ascii n.repr).head? ≠ some 58 ∧ (ascii n.repr).head? ≠ some 32 := by
  obtain ⟨c, cs, hcs⟩ := List.exists_cons_of_ne_nil (digitsValue_repr n).2.2
  have hdigit := (digitsValue_repr n).2.1 c (by rw [hcs]; exact List.mem_cons_self)
  obtain ⟨-, hspace, -, -, -, hcolon⟩ := plain_of_url_char (.inr hdigit)
  rw [hcs]
  exact ⟨by simpa using hcolon, by simpa using hspace⟩

theorem name_chars : ∀ c ∈ ascii "Content-Length", Mongoose.isText c = true ∧ c ≠ 58 ∧ c ≠ 32 := by
  decide +kernel

/-- The header with the length of a body. -/
def contentLengthHeader (n : Nat) : Mongoose.HeaderText where
  name := ascii "Content-Length"
  value := ascii n.repr
  name_ne := by decide
  name_chars := name_chars
  value_chars := length_chars n
  value_head := length_head n

namespace ApiCall

/-- The URL that is called. -/
def url (call : ApiCall) : Bytes := call.callback.url call.slash call.deviceId.val call.id.val

theorem plain_url (call : ApiCall) {c : UInt8} (hc : c ∈ call.url) :
    Mongoose.isText c = true ∧ c ≠ 32 ∧ c ≠ 37 ∧ c ≠ 63 ∧ c ≠ 0 ∧ c ≠ 58 :=
  plain_of_url_char (url_chars _ _ _ _ c hc)

theorem head_url (call : ApiCall) : call.url.head? = some 47 := by
  rw [url]
  cases call.callback <;> rfl

theorem url_ne (call : ApiCall) : call.url ≠ [] := by
  intro hnil
  have h := call.head_url
  rw [hnil] at h
  cases h

theorem target_chars (call : ApiCall) : ∀ c ∈ call.url, Mongoose.isText c = true ∧ c ≠ 32 := by
  intro c hc
  exact ⟨(call.plain_url hc).1, (call.plain_url hc).2.1⟩

theorem version_chars : ∀ c ∈ ascii "1.1", Mongoose.isText c = true := by
  decide +kernel

/-- The text of a call, up to its body. -/
def text (call : ApiCall) : Mongoose.RequestText where
  method := call.method
  target := call.url
  version := ascii "1.1"
  headers := [contentLengthHeader call.body.length]
  method_valid := call.method_valid
  target_ne := call.url_ne
  target_chars := call.target_chars
  version_chars := version_chars
  headers_fit := Nat.le_add_left 1 29

/-- The URL is the path it stands for. -/
theorem uriOf_url (call : ApiCall) : Mongoose.uriOf (call.url.takeWhile (· != 63)) = call.url := by
  have hquery : call.url.takeWhile (· != 63) = call.url :=
    List.takeWhile_eq_self_iff.mpr fun c hc => by simpa using (call.plain_url hc).2.2.2.1
  have hescaped : ∀ l : Bytes, (∀ c ∈ l, c ≠ 37) → Mongoose.Escaped l l := by
    intro l hl
    induction l with
    | nil => exact .nil
    | cons c l ih =>
        exact .plain (hl c List.mem_cons_self) (ih fun d hd => hl d (List.mem_cons_of_mem _ hd))
  have hdecode := Mongoose.mgUrlDecode_escaped (hescaped call.url fun c hc => (call.plain_url hc).2.2.1)
  have hnul : NulFree call.url := fun c hc => (call.plain_url hc).2.2.2.2.1
  rw [hquery, Mongoose.uriOf, hdecode, cString_of_nulFree hnul, if_pos (.inl call.head_url)]
  exact Mongoose.removeDoubleDotsFrom_of_safe false call.safe fun h => by cases h

theorem query_url (call : ApiCall) : (63 : UInt8) ∉ call.url := by
  intro h
  exact (call.plain_url h).2.2.2.1 rfl

/-- What is parsed of the text. -/
theorem message_text (call : ApiCall) : call.text.message =
    { requestMethod := call.method
      uri := call.url
      httpVersion := ascii "1.1"
      queryString := none
      statusCode := 0
      headers := [(ascii "Content-Length", ascii call.body.length.repr)] } := by
  have hquery : call.text.message.queryString = none := if_neg call.query_url
  have huri : call.text.message.uri = call.url := call.uriOf_url
  rw [← hquery, ← huri]
  rfl

theorem length_text (call : ApiCall) : call.text.text.length ≤ 16385 := by
  have hmethod : ∀ m ∈ [ascii "GET", ascii "POST", ascii "HEAD", ascii "CONNECT", ascii "PUT",
      ascii "DELETE", ascii "OPTIONS", ascii "PROPFIND", ascii "MKCOL"], m.length ≤ 8 := by decide
  have hvalid := hmethod call.method
    (by simpa only [Mongoose.isValidHttpMethod, decide_eq_true_eq] using call.method_valid)
  have hdigits : (ascii call.body.length.repr).length ≤ 19 := by
    rw [ascii, List.length_map, String.length_toList, Nat.length_repr_le_iff (by decide)]
    exact call.body_lt.trans (by decide)
  have hhttp : (ascii "HTTP/").length = 5 := by decide
  have hversion : (ascii "1.1").length = 3 := by decide
  have hname : (ascii "Content-Length").length = 14 := by decide
  have hurl : call.url.length ≤ 16000 := call.url_length
  simp only [Mongoose.RequestText.text, Mongoose.RequestText.requestLine, text, Mongoose.headerText,
    Mongoose.HeaderText.line, contentLengthHeader, Mongoose.crlf, List.foldr_cons, List.foldr_nil,
    List.length_append, List.length_cons, List.length_nil, hhttp, hversion, hname]
  omega

theorem plain_message (call : ApiCall) : call.text.message.requestsWebsocket = false := by
  have hname : (ascii "Sec-WebSocket-Version").map Mongoose.lowercase ≠
      (ascii "Content-Length").map Mongoose.lowercase := by decide
  rw [message_text]
  simp [Mongoose.Message.requestsWebsocket, Mongoose.Message.mgGetHeader, hname]

theorem contentLength_message (call : ApiCall) :
    call.text.message.contentLength = call.body.length := by
  have hheader : (call.text.message.mgGetHeader (ascii "Content-Length")) =
      some (ascii call.body.length.repr) := by
    rw [message_text]
    simp [Mongoose.Message.mgGetHeader]
  obtain ⟨hvalue, hdigits, hne⟩ := digitsValue_repr call.body.length
  have hnumeral : Numeral (ascii call.body.length.repr) call.body.length :=
    Numeral.plain _ _ hne hdigits (by rw [hvalue])
  have hstops : Stops [0] := ⟨0, [], rfl, rfl⟩
  have hlt := call.body_lt
  rw [Mongoose.Message.contentLength, hheader]
  simp only [hnumeral.strtol hstops, Option.getD_some, clampLong]
  omega

/-- The request of a call. -/
def request (call : ApiCall) : Mongoose.HttpRequest where
  head := call.text.text
  message := call.text.message
  isHead := call.text.isHead_text
  fits := call.length_text
  parsed := Mongoose.parseHttpMessage_text call.text
  uri_valid := by
    rw [message_text, Mongoose.isValidUri, call.head_url]
    rfl
  version_valid := .inr (by rw [message_text])
  body := call.body
  plain := call.plain_message
  length_body := call.contentLength_message

/-! ## 3. What a call runs -/

/-- The parameters of a call, empty where the route does not have them. -/
def params (call : ApiCall) (name : String) : Bytes :=
  if ascii name = ascii "id" then call.id.val
  else if ascii name = ascii "device_id" ∧ call.callback.hasDevice = true then call.deviceId.val
  else []

/-- The program of the action on the call's own parameters and body. -/
def run (statements : Statements) (c : Cajun) (call : ApiCall) : Program (Option Bytes) :=
  call.callback.run statements c
    { method := methodOf call.method, params := call.params, postDataRaw := call.body }

end ApiCall

/-- A name that the route does not have is not among the parameters. -/
theorem params_other {κ : Type} (t : Template) (callback : κ) (url : Bytes) {n : Bytes}
    (hn : n ∉ t.paramNames) : (t.action callback).params url n = [] := by
  unfold HttpdAction.params
  cases (t.action callback).regexp.search url with
  | none => rfl
  | some groups =>
      refine foldl_update _ (fun i hi hin => absurd ?_ hn) (.inr rfl)
      have hlt : i < t.paramNames.length := List.mem_range.mp hi
      have hget : t.paramNames.getD i [] = n := hin
      rw [← hget, List.getD_eq_getElem _ _ hlt]
      exact List.getElem_mem hlt

namespace ApiCall

theorem paramNames_template (callback : Callback) : callback.template.paramNames =
    if callback.hasDevice = true then [ascii "device_id", ascii "id"] else [ascii "id"] := by
  cases callback <;> decide

theorem params_url (call : ApiCall) (name : String) :
    (call.callback.template.action call.callback).params call.url (ascii name) = call.params name := by
  have hsearch : call.callback.template.regexp.search call.url =
      some (captured (paramDigits call.deviceId call.id) 0 call.callback.template.segments []) := by
    rw [url, ← url_paramDigits]
    exact Regex.search_of_prefers (prefers_urlWith (definite_template call.callback) 0 [])
  have hdiffer : ascii "id" ≠ ascii "device_id" := by decide
  have hnames := paramNames_template call.callback
  rw [params]
  split
  · rename_i hid
    have hmem : ascii name ∈ call.callback.template.paramNames := by
      rw [hnames, hid]
      split <;> simp
    rw [params_captured call.callback hsearch hmem, paramDigits, if_neg (by rw [hid]; exact hdiffer)]
  · rename_i hid
    split
    · rename_i hdevice
      have hmem : ascii name ∈ call.callback.template.paramNames := by
        rw [hnames, hdevice.1, if_pos hdevice.2]
        exact List.mem_cons_self
      rw [params_captured call.callback hsearch hmem, paramDigits, if_pos hdevice.1]
    · rename_i hdevice
      refine params_other _ _ _ ?_
      rw [hnames]
      split
      · rename_i hhas
        have hne : ascii name ≠ ascii "device_id" := fun h => hdevice ⟨h, hhas⟩
        simp [hid, hne]
      · simp [hid]

theorem resolve_call (call : ApiCall) :
    resolve apiActions.httpd (methodOf call.method) call.url call.body = some (call.callback,
      { method := methodOf call.method, params := call.params, postDataRaw := call.body }) := by
  have hparams : (fun name => (call.callback.template.action call.callback).params call.url
      (ascii name)) = call.params := funext call.params_url
  rw [resolve, url, findAction_url, ← hparams]
  rfl

/-- The handler on the request of a call runs the program of its action, and answers. -/
theorem evHandler_request {statements : Statements} {c : Cajun} (call : ApiCall) {s u : Server}
    {out : Mongoose.HttpOutput} {response : Bytes} (hstatus : out.statusCode = 0)
    (hrun : call.run statements c s = (.ok (some response), u)) :
    evHandler statements c apiActions.httpd call.request.message call.request.body (s, out) =
      .ok (true, (u, (out.responseData response 200).callRequestHandler)) := by
  have hresolve : resolve apiActions.httpd (methodOf call.text.message.requestMethod)
      call.text.message.uri call.body = some (call.callback,
        { method := methodOf call.method, params := call.params, postDataRaw := call.body }) := by
    rw [message_text]
    exact call.resolve_call
  have hout : ({ out with statusCode := call.text.message.statusCode } : Mongoose.HttpOutput) = out := by
    rw [message_text, ← hstatus]
  show evHandler statements c apiActions.httpd call.text.message call.body (s, out) = _
  rw [run] at hrun
  rw [evHandler, hresolve]
  dsimp only
  rw [hrun, hout]

/-- Every call is answered, on the server the calls before it leave. -/
def Served (statements : Statements) (c : Cajun) : List ApiCall → List Bytes → Server → Server → Prop
  | [], [], s, t => t = s
  | call :: calls, response :: responses, s, t => ∃ u,
      call.run statements c s = (.ok (some response), u) ∧ Served statements c calls responses u t
  | _, _, _, _ => False

theorem Served.answered {statements : Statements} {c : Cajun} {calls : List ApiCall}
    {responses : List Bytes} {s t : Server} (h : Served statements c calls responses s t)
    {out : Mongoose.HttpOutput} (hstatus : out.statusCode = 0) (hheaders : out.headersSent = false) :
    Mongoose.HttpRequest.Answered (evHandler statements c apiActions.httpd) (calls.map request) (s, out)
      (t, (responses.map fun r => (r, (200 : Int32))).foldl
        (fun out r => (out.responseData r.1 r.2).callRequestHandler) out) := by
  fun_induction Served statements c calls responses s t generalizing out with
  | case1 s t =>
      rw [h]
      rfl
  | case2 call calls response responses s t ih =>
      obtain ⟨u, hrun, hrest⟩ := h
      have hsent := Mongoose.responseData_sent hstatus hheaders response 200
      refine ⟨_, call.evHandler_request hstatus hrun, ?_⟩
      rw [List.map_cons, List.foldl_cons]
      refine ih u hrest ?_ ?_
      · rw [hsent]
        exact hstatus
      · rw [hsent]
        exact hheaders
  | case3 => exact h.elim

theorem shouldKeepAlive_message (call : ApiCall) : call.text.message.shouldKeepAlive = true := by
  have hname : (ascii "Connection").map Mongoose.lowercase ≠
      (ascii "Content-Length").map Mongoose.lowercase := by decide
  rw [message_text]
  simp [Mongoose.Message.shouldKeepAlive, Mongoose.Message.mgGetHeader, hname]

/-- No call has the connection closed. -/
theorem closingAfter_calls (calls : List ApiCall) :
    Mongoose.HttpConnection.closingAfter false (calls.map request) = false := by
  induction calls with
  | nil => rfl
  | cons call calls ih =>
      have hkeep : call.request.message.shouldKeepAlive = true := call.shouldKeepAlive_message
      rw [List.map_cons, Mongoose.HttpConnection.closingAfter, List.foldl_cons, hkeep]
      exact ih

end ApiCall

/-! ## 4. What is answered -/

/-- Where a program answers, the answer is not empty. -/
def Answers (p : Program (Option Bytes)) : Prop :=
  ∀ s response u, p s = (.ok (some response), u) → response ≠ []

theorem answers_none : Answers (pure none) := by
  intro s response u h
  cases h

theorem answers_some {response : Bytes} (hne : response ≠ []) : Answers (pure (some response)) := by
  intro s r u h
  cases h
  exact hne

theorem answers_bind {α : Type} {x : Program α} {f : α → Program (Option Bytes)}
    (h : ∀ a, Answers (f a)) : Answers (x >>= f) := by
  intro s response u hrun
  rcases hx : x s with ⟨result, v⟩
  cases result with
  | error e =>
      rw [Program.bind_error hx] at hrun
      cases hrun
  | ok a =>
      rw [Program.bind_ok hx] at hrun
      exact h a v response u hrun

theorem write_ne (c : Cajun) (o : Object) : c.write o ≠ [] := by
  have hopen : ∀ o : Object, ∃ rest, Writer.element c.format (.object o) = 123 :: rest := by
    intro o
    cases o with
    | nil => exact ⟨_, rfl⟩
    | cons p ms => exact ⟨_, rfl⟩
  obtain ⟨rest, hrest⟩ := hopen o
  rw [Cajun.write, hrest]
  exact List.cons_ne_nil _ _

theorem writeArray_ne (c : Cajun) (a : List Json) : c.writeArray a ≠ [] := by
  have hopen : ∀ a : List Json, ∃ rest, Writer.element c.format (.array a) = 91 :: rest := by
    intro a
    cases a with
    | nil => exact ⟨_, rfl⟩
    | cons e es => exact ⟨_, rfl⟩
  obtain ⟨rest, hrest⟩ := hopen a
  rw [Cajun.writeArray, hrest]
  exact List.cons_ne_nil _ _

theorem toJson_ne {ρ T : Type} (M : ModelClass ρ T) (c : Cajun) (env : ρ) (t : T) :
    M.toJson c env t ≠ [] := write_ne c _

theorem answers_resource {T : Type} (M : ModelClass Registry T) (blank : T) (name : TableName)
    (statements : Statements) (c : Cajun) (request : Request) :
    Answers (programs.resource M blank name statements c request) := by
  unfold programs.resource
  refine answers_bind fun s => ?_
  split
  · exact answers_bind fun collection => answers_some (writeArray_ne c _)
  split
  · exact answers_bind fun r => answers_some (toJson_ne M c _ _)
  split
  · exact answers_bind fun t => answers_bind fun t => answers_some (toJson_ne M c _ _)
  split
  · exact answers_bind fun r => answers_bind fun t => answers_bind fun t =>
      answers_some (toJson_ne M c _ _)
  · exact answers_none

theorem answers_ports (statements : Statements) (c : Cajun) (request : Request) :
    Answers (programs.ports statements c request) := by
  unfold programs.ports
  refine answers_bind fun s => answers_bind fun r => ?_
  split
  · exact answers_none
  cases request.method with
  | get =>
      dsimp only
      split
      · exact answers_none
      · exact answers_some (toJson_ne _ c _ _)
  | post => exact answers_bind fun port => answers_bind fun _ => answers_some (toJson_ne _ c _ _)
  | put =>
      dsimp only
      split
      · exact answers_none
      · exact answers_bind fun port => answers_bind fun _ => answers_some (toJson_ne _ c _ _)
  | options | delete | other => exact answers_none

theorem answers_setPort (c : Cajun) (request : Request) : Answers (programs.setPort c request) := by
  unfold programs.setPort
  refine answers_bind fun s => ?_
  split
  · exact answers_none
  split
  · exact answers_none
  split
  · exact answers_none
  · exact answers_bind fun doc => answers_bind fun _ => answers_some (by decide)

/-- No action answers with nothing. -/
theorem answers_run (statements : Statements) (c : Cajun) (request : Request) (callback : Callback) :
    Answers (callback.run statements c request) := by
  cases callback with
  | devices => exact answers_resource _ _ _ _ _ _
  | users => exact answers_resource _ _ _ _ _ _
  | ports => exact answers_ports _ _ _
  | setPort => exact answers_setPort _ _

theorem ApiCall.Served.ne {statements : Statements} {c : Cajun} {calls : List ApiCall}
    {responses : List Bytes} {s t : Server} (h : ApiCall.Served statements c calls responses s t) :
    ∀ response ∈ responses, response ≠ [] := by
  fun_induction ApiCall.Served statements c calls responses s t with
  | case1 => exact fun _ h => absurd h List.not_mem_nil
  | case2 call calls response responses s t ih =>
      obtain ⟨u, hrun, hrest⟩ := h
      exact List.forall_mem_cons.mpr ⟨answers_run _ _ _ _ s response u hrun, ih u hrest⟩
  | case3 => exact h.elim

/-- Calls of the API sent one after the other on a connection, each of which is answered: each runs the
    program of its action on its own parameters and its own body, and nothing else is run, exactly if
    every text ends where a segment does. Then the server is the one the programs leave, the connection
    stays open, and what goes out is read as the answers of the programs and nothing else. -/
theorem apiCalls_exact (statements : Statements) (c : Cajun) (calls : List ApiCall)
    (responses segments : List Bytes) (s t : Server)
    (hstream : segments.flatten = calls.flatMap fun call => call.request.wire)
    (hserved : ApiCall.Served statements c calls responses s t) :
    ((∃ conn, Mongoose.HttpConnection.received (evHandler statements c apiActions.httpd)
          (.before [] [] false (s, {})) segments = .ok conn ∧
        conn.events = calls.map fun call => call.request.event) ↔
      Mongoose.HttpConnection.Aligned [] segments (calls.map ApiCall.request)) ∧
    (Mongoose.HttpConnection.Aligned [] segments (calls.map ApiCall.request) → ∃ out,
      Mongoose.HttpConnection.received (evHandler statements c apiActions.httpd)
          (.before [] [] false (s, {})) segments =
        .ok (.before [] (calls.map fun call => call.request.event) false (t, out)) ∧
      ((∀ response ∈ responses, response.length < 2 ^ 31) →
        ∀ read, Texts Mongoose.IsResponse out.sendIobuf read ↔
          read = responses.map fun response => (200, response))) := by
  have hwire : segments.flatten = (calls.map ApiCall.request).flatMap Mongoose.HttpRequest.wire := by
    rw [hstream, List.flatMap_map]
  have hevents : (calls.map fun call => call.request.event) =
      (calls.map ApiCall.request).map Mongoose.HttpRequest.event := by
    rw [List.map_map]
    rfl
  have hboth := @Mongoose.HttpConnection.received_requests (Server × Mongoose.HttpOutput) JsonException
    (evHandler statements c apiActions.httpd) false (s, {}) (calls.map ApiCall.request) segments _ hwire
    (hserved.answered rfl rfl)
  rw [ApiCall.closingAfter_calls] at hboth
  rw [hevents]
  refine ⟨⟨fun ⟨conn, hconn, h⟩ => ?_, fun h => ⟨_, hboth.1 h, rfl⟩⟩, fun h => ⟨_, hboth.1 h, ?_⟩⟩
  · by_contra hnot
    exact hboth.2 hnot conn hconn h
  · intro hshort read
    have hreplies := (Mongoose.texts_replies (responses.map fun r => (r, 200)) (by simpa using hshort)).mpr
      (by simpa using hserved.ne)
    rw [List.map_map] at hreplies
    rw [Mongoose.replies_sent rfl rfl]
    exact Mongoose.textFormat_isResponse.texts_unique hreplies

def noDigits : Digits := ⟨[], fun _ h => absurd h List.not_mem_nil⟩

theorem users_safe : Mongoose.Safe (Callback.users.url false noDigits.val noDigits.val) := by
  have hurl : Callback.users.url false noDigits.val noDigits.val =
      Mongoose.removeDoubleDotsFrom false (ascii "/api/users") := by decide +kernel
  rw [hurl]
  exact (Mongoose.safe_removeDoubleDotsFrom _ _).1

/-- All users are asked for. -/
def listUsers : ApiCall where
  callback := .users
  slash := false
  deviceId := noDigits
  id := noDigits
  method := ascii "GET"
  method_valid := by decide +kernel
  body := []
  body_lt := by decide
  safe := users_safe
  url_length := by decide +kernel

/-- The server without rows and without live devices. -/
def blankServer : Server where
  devices := ⟨∅, 1⟩
  users := ⟨∅, 1⟩
  live _ := none

/-- The users are asked for twice, the second time in two segments. -/
theorem apiCalls_exact_listUsers : ∃ t out, Mongoose.HttpConnection.received
      (evHandler {} (Cajun.knowing []) apiActions.httpd) (.before [] [] false (blankServer, {}))
      [listUsers.request.wire, listUsers.request.wire.take 9, listUsers.request.wire.drop 9] =
        .ok (.before [] [listUsers.request.event, listUsers.request.event] false (t, out)) ∧
    ∀ read, Texts Mongoose.IsResponse out.sendIobuf read ↔
      read = [(200, ascii "[]"), (200, ascii "[]")] := by
  have hserved : ApiCall.Served {} (Cajun.knowing []) [listUsers, listUsers] [ascii "[]", ascii "[]"]
      blankServer _ := ⟨_, rfl, _, rfl, rfl⟩
  have haligned : Mongoose.HttpConnection.Aligned []
      [listUsers.request.wire, listUsers.request.wire.take 9, listUsers.request.wire.drop 9]
      ([listUsers, listUsers].map ApiCall.request) := by
    intro k hk hle
    obtain rfl | rfl : k = 1 ∨ k = 2 := by
      have : [listUsers, listUsers].length = 2 := rfl
      rw [List.length_map] at hle
      omega
    · exact ⟨1, by simp⟩
    · exact ⟨3, by simp⟩
  obtain ⟨out, hconn, hread⟩ := (apiCalls_exact {} (Cajun.knowing []) [listUsers, listUsers]
    [ascii "[]", ascii "[]"] [listUsers.request.wire, listUsers.request.wire.take 9,
      listUsers.request.wire.drop 9] blankServer _ (by simp) hserved).2 haligned
  exact ⟨_, out, hconn, hread (by decide)⟩

end Httpd

end Domoio
