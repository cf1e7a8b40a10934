import Domoio.Lib.Words
import Domoio.Segmentation

/-
  File:      Domoio/Commands.lean
  Subject:   A command in the clear and in a session: the same words reach `execute_callback`.

  To speak of the calls of `execute_callback` the callback is taken out of `process_input`: in
  `processInputIn` any code in any monad stands in its place. With the callback itself it is
  `processInput` (`processInput_eq`); with the callback that also writes down its arguments it gives
  the calls (`calls`), and its result is still that of `processInput` (`traced_processInput`).
-/

namespace Domoio

open Lib

namespace World

/-! ## 1. The callback taken out -/

section Callback

variable {m : Type → Type} [Monad m] [MonadLiftT (Except Fault) m]

/-- `Connection::dispatch_request`, over the code of `execute_callback`. -/
def dispatchRequestIn (execute : World → ConnId → Bytes → List Bytes → m Outcome) (w : World)
    (k : ConnId) (str : Bytes) : m Outcome :=
  match requestParams str with
  | [] => pure (.done ((w.logged k str).send k (ascii "400 Bad Request")))
  | name :: params => execute (w.logged k str) k name params

/-- What `process_input` does when the request is done with: its `catch` answers and closes. -/
def afterRequest (k : ConnId) (started : Bool) : Outcome → m Outcome
  | .done w => pure (.done w)
  | .thrown w =>
      if started then do
        let w := w.updConn k fun c => { c with sessionStarted := false }
        return .done (← monadLift ((w.send k (ascii "400 Bad Request")).close k))
      else pure (.thrown w)

/-- `DeviceConnection::process_input`, over the code of `execute_callback`. -/
def processInputIn (execute : World → ConnId → Bytes → List Bytes → m Outcome) (w : World)
    (k : ConnId) (data : Bytes) (bytesTransferred : Nat) : m Outcome :=
  let started := (w.conns k).sessionStarted
  match requestOf started data bytesTransferred with
  | none => monadLift (.error .overread : Except Fault Outcome)
  | some str => do
      let outcome ← dispatchRequestIn execute w k str
      afterRequest k started outcome

end Callback

theorem dispatchRequest_eq (env : Env) (w : World) (k : ConnId) (str : Bytes) :
    w.dispatchRequest env k str = dispatchRequestIn (executeCallback env) w k str := rfl

/-- With the callback in its place this is the code. -/
theorem processInput_eq (env : Env) (w : World) (k : ConnId) (data : Bytes) (n : Nat) :
    w.processInput env k data n = processInputIn (executeCallback env) w k data n := by
  unfold processInput processInputIn
  dsimp only
  cases requestOf (w.conns k).sessionStarted data n with
  | none => rfl
  | some str =>
      simp only [dispatchRequest_eq]
      cases dispatchRequestIn (executeCallback env) w k str with
      | error e =>
          cases (w.conns k).sessionStarted <;> rfl
      | ok outcome =>
          cases outcome <;> cases (w.conns k).sessionStarted <;> rfl

/-! ## 2. The calls -/

/-- Runs that write down the arguments of each call, those that go wrong too. -/
abbrev Traced := ExceptT Fault (StateM (List (List Bytes)))

/-- The callback, its arguments written down. -/
def tracedCallback (env : Env) (w : World) (k : ConnId) (name : Bytes) (params : List Bytes) :
    Traced Outcome := do
  modify (· ++ [name :: params])
  monadLift (executeCallback env w k name params)

/-- The calls of `execute_callback` that `process_input` makes on a chunk, with their arguments. -/
def calls (env : Env) (w : World) (k : ConnId) (chunk : Bytes) : List (List Bytes) :=
  ((processInputIn (tracedCallback env) w k (receiveBuffer chunk) chunk.length).run []).2

variable {env : Env} {w : World} {k : ConnId}

/-- What follows the callback leaves the log, and ends as it does without one. -/
theorem afterRequest_run {σ : Type} (started : Bool) (outcome : Outcome) (log : σ) :
    (afterRequest k started outcome : ExceptT Fault (StateM σ) Outcome).run log =
      ((afterRequest k started outcome : Except Fault Outcome), log) := by
  cases outcome with
  | done w => rfl
  | thrown w =>
      cases started with
      | false => rfl
      | true =>
          simp only [afterRequest, if_true]
          cases ((w.updConn k fun c => { c with sessionStarted := false }).send k
            (ascii "400 Bad Request")).close k <;> rfl

/-- A callback that is written down ends as it does alone. -/
theorem tracedCallback_run (name : Bytes) (params : List Bytes) (started : Bool)
    (log : List (List Bytes)) :
    (tracedCallback env w k name params >>= afterRequest k started).run log =
      (executeCallback env w k name params >>= afterRequest k started, log ++ [name :: params]) := by
  show (ExceptT.bindCont (afterRequest k started) (executeCallback env w k name params) : StateM _ _)
    (log ++ [name :: params]) = _
  cases executeCallback env w k name params with
  | error e => rfl
  | ok outcome => exact afterRequest_run started outcome (log ++ [name :: params])

/-- Writing the calls down changes nothing of what `process_input` does. -/
theorem traced_processInput (data : Bytes) (n : Nat) (log : List (List Bytes)) :
    ((processInputIn (tracedCallback env) w k data n).run log).1 = w.processInput env k data n := by
  rw [processInput_eq]
  unfold processInputIn
  dsimp only
  cases requestOf (w.conns k).sessionStarted data n with
  | none => rfl
  | some str =>
      cases hparams : requestParams str with
      | nil =>
          simp only [dispatchRequestIn, hparams]
          rfl
      | cons name params =>
          simp only [dispatchRequestIn, hparams]
          rw [tracedCallback_run]

/-! ## 3. Commands -/

/-- The words of a command: what the tokenizer returns, without a NUL, and of a last word that
    trimming leaves whole. -/
structure CommandLine where
  words : List Bytes
  nonempty : words ≠ []
  isWord : ∀ word ∈ words, IsWord word
  nulFree : ∀ word ∈ words, NulFree word
  last : ∀ word ∈ words.getLast?, ∀ c ∈ word.getLast?, isSpace c = false

namespace CommandLine

/-- The text is the command's words with one or more spaces between them, and white space behind. -/
def Formats (command : CommandLine) (s : Bytes) : Prop :=
  ∃ joined trail, Joined command.words joined ∧ (∀ c ∈ trail, isSpace c = true) ∧
    s = joined ++ trail

variable {command : CommandLine} {s : Bytes}

/-- Parsing inverts formatting. -/
theorem Formats.requestParams (h : command.Formats s) : World.requestParams s = command.words := by
  obtain ⟨joined, trail, hjoined, htrail, rfl⟩ := h
  have hne : ∀ word ∈ command.words, word ≠ [] := fun word hw => (command.isWord word hw).nonempty
  rw [World.requestParams, trimRight_line hjoined hne command.last htrail,
    tokens_joined hjoined command.isWord]

theorem Formats.nulFree (h : command.Formats s) : NulFree s := by
  obtain ⟨joined, trail, hjoined, htrail, rfl⟩ := h
  have hnul : isSpace 0 = false := by decide
  intro c hc
  rcases List.mem_append.mp hc with hc | hc
  · exact hjoined.nulFree command.nulFree c hc
  · intro heq
    subst heq
    rw [htrail 0 hc] at hnul
    cases hnul

/-- The frame of a formatted command is taken for its text. -/
theorem Formats.isFrame (h : command.Formats s) (started : Bool) (junk : UInt8) :
    IsFrame (started, frame started s junk) s :=
  ⟨⟨junk, rfl⟩, fun _ => h.nulFree⟩

end CommandLine

/-- A frame of a command is one call of the callback, with the words of the command. -/
theorem processInputIn_frame {m : Type → Type} [Monad m] [MonadLiftT (Except Fault) m]
    (execute : World → ConnId → Bytes → List Bytes → m Outcome) {command : CommandLine} {s : Bytes}
    (h : command.Formats s) {name : Bytes} {params : List Bytes}
    (hwords : command.words = name :: params) {chunk : Bytes} {junk : UInt8}
    (hchunk : chunk = frame (w.conns k).sessionStarted s junk) :
    processInputIn execute w k (receiveBuffer chunk) chunk.length =
      execute (w.logged k s) k name params >>= afterRequest k (w.conns k).sessionStarted := by
  subst hchunk
  have hrequest : requestOf (w.conns k).sessionStarted _ _ = some s :=
    requestOfChunk_frame (h.isFrame (w.conns k).sessionStarted junk)
  have hparams := h.requestParams
  rw [hwords] at hparams
  unfold processInputIn
  simp only [hrequest, dispatchRequestIn, hparams]

theorem calls_frame (env : Env) (w : World) (k : ConnId) {command : CommandLine} {s : Bytes}
    (h : command.Formats s) (junk : UInt8) :
    calls env w k (frame (w.conns k).sessionStarted s junk) = [command.words] := by
  cases hwords : command.words with
  | nil => exact absurd hwords command.nonempty
  | cons name params =>
      rw [calls, processInputIn_frame (tracedCallback env) h hwords rfl, tracedCallback_run]
      rfl

/-- A command of any words, in the clear or in a session, is one call with just these words. -/
theorem calls_command (env : Env) (w : World) (k : ConnId) (command : CommandLine) {s : Bytes}
    (h : command.Formats s) (junk : UInt8) :
    ((w.conns k).sessionStarted = false → calls env w k (s ++ [0]) = [command.words]) ∧
    ((w.conns k).sessionStarted = true → calls env w k (hexEncode s ++ [junk]) = [command.words]) := by
  refine ⟨fun hraw => ?_, fun hsession => ?_⟩
  · have hcalls := calls_frame env w k h junk
    rw [hraw] at hcalls
    exact hcalls
  · have hcalls := calls_frame env w k h junk
    rw [hsession] at hcalls
    exact hcalls

set_option maxRecDepth 4096 in
/-- A value set, and the same line with two spaces and a line end. -/
def setCommand : CommandLine where
  words := [ascii "set", ascii "3", ascii "21"]
  nonempty := by decide
  isWord := by decide
  nulFree := by decide
  last := by decide

set_option maxRecDepth 4096 in
theorem setCommand_formats : setCommand.Formats (ascii "set  3 21\x0d\n") :=
  ⟨ascii "set  3 21", ascii "\x0d\n", .cons (ascii "set") 1 (.cons (ascii "3") 0 (.single (ascii "21"))),
    by decide, by decide⟩

theorem calls_command_set :
    calls (answering []) (loadVirtualDevices []) 0 (ascii "set  3 21\x0d\n" ++ [0]) = [setCommand.words] ∧
    calls (answering []) { conns := fun _ => { sessionStarted := true } } 0
      (hexEncode (ascii "set  3 21\x0d\n") ++ [0]) = [setCommand.words] :=
  ⟨(calls_command (answering []) _ 0 setCommand setCommand_formats 0).1 rfl,
    (calls_command (answering []) _ 0 setCommand setCommand_formats 0).2 rfl⟩

end World

end Domoio
