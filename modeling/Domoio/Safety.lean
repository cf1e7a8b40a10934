import Domoio.Simulation

/-
  File:      Domoio/Safety.lean
  Subject:   The command state machine of a connection and the NULL device pointer.

  A started session always has a device (`World.WF`); what can go wrong is a command: `login` and
  `aps` follow the pointer without asking for a session, and a refused `create_session` inside a
  session has set it to NULL before `close` follows it. `requestSafe_iff` says exactly which
  requests are handled safely, in any state the server reaches.
-/

namespace Domoio

open Lib

namespace World

/-- The replies that tell a device of an error. -/
def errorReplies : List Bytes :=
  [ascii "400 Bad Request", ascii "406 Not Acceptable", ascii "BAD LOGIN"]

/-- The commands that work on the device of a session. -/
def Command.needsSession : Command → Bool
  | .login | .aps => true
  | .createSession | .exit | .set => false

/-- The request in a chunk is handled safely: no NULL pointer is followed, and a command that needs
    a session and comes without one is answered with an error. -/
structure RequestSafe (w : World) (k : ConnId) (chunk : Bytes) (env : Env) : Prop where
  noNull : w.step (.read k chunk env) ≠ .error .nullDeref
  answered : ∀ {str cmd params}, w.chunkRequest k chunk = some str →
    requestCommand str = some (cmd, params) → cmd.needsSession = true →
    (w.conns k).sessionStarted = false → ∃ w' msg, w.step (.read k chunk env) = .ok w' ∧
      msg ∈ errorReplies ∧ (w'.conns k).sent = (w.conns k).sent ++ [(false, msg)]

/-- Without a session `login` comes with a wrong password and `aps` not at all; in one, a
    `create_session` is for a device that has a row or is live. -/
def RequestAdmissible (w : World) (k : ConnId) (chunk : Bytes) (env : Env) : Prop :=
  ∀ str cmd params, w.chunkRequest k chunk = some str → requestCommand str = some (cmd, params) →
    match cmd with
    | .login => (w.conns k).sessionStarted = false →
        ∃ passwd rest, params = passwd :: rest ∧ cString passwd ≠ ascii "1234"
    | .aps => (w.conns k).sessionStarted = true
    | .createSession => (w.conns k).sessionStarted = true → ∀ arg rest, params = arg :: rest →
        env.loadFromDb (atoi arg) ≠ none ∨ w.find (atoi arg) ≠ none
    | .exit | .set => True

section Iff

variable {w w' : World} {k : ConnId} {env : Env} {chunk str : Bytes} {cmd : Command}
  {params : List Bytes}

variable (env) in
/-- A bad login without a session is answered. -/
theorem answered_badLogin (h : w.WF) (hr : w.chunkRequest k chunk = some str)
    (hs : (w.conns k).sessionStarted = false) {passwd : Bytes} {rest : List Bytes}
    (hc : requestCommand str = some (.login, passwd :: rest)) (hpw : cString passwd ≠ ascii "1234") :
    ∃ w', w.step (.read k chunk env) = .ok w' ∧
      (w'.conns k).sent = (w.conns k).sent ++ [(false, ascii "BAD LOGIN")] := by
  obtain ⟨name, hd⟩ := dispatch_command w k env hc
  obtain ⟨w', hw', -, hsent⟩ := callback_badLogin env name rest
    (h.logged k str) (k := k) hpw
  rw [hw'] at hd
  refine ⟨w', read_done hr hd, ?_⟩
  rw [hsent, logged_self]
  show (w.conns k).sent ++ [((w.conns k).sessionStarted, ascii "BAD LOGIN")] = _
  rw [hs]

variable (env) in
/-- An `aps` without parameters is answered `200 OK`, session or not. -/
theorem answered_bareAps (hr : w.chunkRequest k chunk = some str)
    (hs : (w.conns k).sessionStarted = false) (hc : requestCommand str = some (.aps, [])) :
    ∃ w', w.step (.read k chunk env) = .ok w' ∧
      (w'.conns k).sent = (w.conns k).sent ++ [(false, ascii "200 OK")] := by
  obtain ⟨name, hd⟩ := dispatch_command w k env hc
  refine ⟨_, read_done hr hd, ?_⟩
  rw [send_self, DeviceConnection.send_sent, logged_self]
  show (w.conns k).sent ++ [((w.conns k).sessionStarted, ascii "200 OK")] = _
  rw [hs]

/-- An admissible request follows no NULL pointer. -/
theorem not_requestNull (h : w.WF) (hadm : RequestAdmissible w k chunk env)
    (hr : w.chunkRequest k chunk = some str) : ¬ requestNull env w k str := by
  intro hex
  rcases hex with ⟨cmd, params, hc, hle, hnull⟩
  have hcmd := hadm str cmd params hr hc
  have hidle : (w.conns k).device = none → (w.conns k).sessionStarted = false := by
    intro hd
    by_contra hs
    obtain ⟨a, d, ha, -⟩ := h.started (by simpa using hs)
    rw [hd] at ha
    cases ha
  cases cmd with
  | createSession =>
      obtain ⟨arg, rest, rfl⟩ := List.exists_cons_of_length_pos hle
      rcases hcmd hnull.2.1 arg rest rfl with hl | hf
      · exact hl hnull.1
      · exact hf hnull.2.2
  | login =>
      obtain ⟨passwd, rest, rfl, hpw⟩ := hcmd (hidle hnull.2)
      exact hpw hnull.1
  | aps =>
      have hs := hidle hnull.2
      rw [hs] at hcmd
      cases hcmd
  | exit | set => exact hnull

/-- A read goes wrong by a NULL pointer only if its request does. -/
theorem read_noNull (h : w.WF) (ho : (w.conns k).isOpen = true)
    (hn : ∀ str, w.chunkRequest k chunk = some str → ¬ requestNull env w k str) :
    w.step (.read k chunk env) ≠ .error .nullDeref := by
  rw [step]
  cases hr : w.chunkRequest k chunk with
  | none => simp [read_overread hr]
  | some str =>
      by_cases hm : requestMissing str
      · cases hs : (w.conns k).sessionStarted with
        | false => simp [read_uncaught hr hm hs]
        | true =>
            obtain ⟨w', hw', -⟩ := read_dropped env hr hm hs
            simp [hw']
      · obtain ⟨w', hw', -⟩ := read_change h ho hr hm (hn str hr)
        simp [hw']

/-- A request is handled safely exactly when it is admissible. -/
theorem requestSafe_iff (h : w.WF) (ho : (w.conns k).isOpen = true) :
    RequestSafe w k chunk env ↔ RequestAdmissible w k chunk env := by
  constructor
  · rintro ⟨hnull, hans⟩ str cmd params hr hc
    have hn : ¬ requestNull env w k str := fun hn => hnull (read_null hr hn)
    cases cmd with
    | login =>
        intro hs
        obtain ⟨w', msg, hok, -⟩ := hans hr hc rfl hs
        cases params with
        | nil =>
            -- the exception would end the server
            rw [step, read_uncaught hr ⟨.login, [], hc, Nat.zero_lt_one⟩ hs] at hok
            cases hok
        | cons passwd rest =>
            exact ⟨passwd, rest, rfl, fun hpw => hn ⟨.login, passwd :: rest, hc,
              Nat.succ_le_succ (Nat.zero_le _), hpw, h.idle ho hs⟩⟩
    | aps =>
        by_contra hs
        have hs' : (w.conns k).sessionStarted = false := by simpa using hs
        cases params with
        | nil =>
            obtain ⟨w', msg, hok, hmem, hsent⟩ := hans hr hc rfl hs'
            obtain ⟨w₁, hw₁, hsent₁⟩ := answered_bareAps env hr hs' hc
            rw [hw₁] at hok
            cases hok
            rw [hsent₁] at hsent
            have hmsg : ascii "200 OK" = msg := by simpa using hsent
            subst hmsg
            exact absurd hmem (by decide)
        | cons param rest =>
            exact hn ⟨.aps, param :: rest, hc, Nat.zero_le _, List.cons_ne_nil _ _, h.idle ho hs'⟩
    | createSession =>
        intro hs arg rest hparams
        subst hparams
        by_contra hne
        rw [not_or, not_not, not_not] at hne
        exact hn ⟨.createSession, arg :: rest, hc, Nat.succ_le_succ (Nat.zero_le _),
          hne.1, hs, hne.2⟩
    | exit | set => trivial
  · intro hadm
    refine ⟨read_noNull h ho fun str hr => not_requestNull h hadm hr, ?_⟩
    intro str cmd params hr hc hneeds hs
    have hcmd := hadm str cmd params hr hc
    cases cmd with
    | login =>
        obtain ⟨passwd, rest, rfl, hpw⟩ := hcmd hs
        obtain ⟨w', hw', hsent⟩ := answered_badLogin env h hr hs hc hpw
        exact ⟨w', ascii "BAD LOGIN", hw', by simp [errorReplies], hsent⟩
    | aps =>
        rw [hs] at hcmd
        cases hcmd
    | createSession | exit | set => cases hneeds

end Iff

/-- In every state the server reaches a started session has its device, and the next request is
    handled safely exactly when it is admissible. -/
theorem stateMachine_exact {devices : List Device} {tr : List (World × Action)} {w : World}
    (hrun : machine.Run (loadVirtualDevices devices) tr w) :
    Machine.States (fun w => ∀ k, (w.conns k).sessionStarted = true →
      ∃ a d, (w.conns k).device = some a ∧ w.heap a = some d) tr w ∧
    ∀ k chunk env, machine.enabled w (.read k chunk env) →
      (RequestSafe w k chunk env ↔ RequestAdmissible w k chunk env) := by
  have hwf := wf_of_run hrun
  refine ⟨hwf.mono fun w h k hs => h.started hs, ?_⟩
  intro k chunk env he
  exact requestSafe_iff hwf.2 he.1

/-- A device with a port starts its session, and is still to report a value. -/
def startedSession : List Action :=
  [.accept, .read 0 (ascii "create_session 5" ++ [0])
    (answering [{ id := 5, specifications := { ports := (∅ : Ports).insert 3 { id := 3 } } }])]

/-- What the device sends: the value of a port, as a session encodes it. -/
def reportChunk : Bytes := hexEncode (ascii "aps 3:1") ++ [0]

theorem startedSession_enabled : (machine.exec [] (loadVirtualDevices []) startedSession).all (fun r =>
    (r.2.conns 0).sessionStarted = true ∧
      machine.enabled r.2 (.read 0 reportChunk (answering []))) = true := by decide

theorem stateMachine_exact_report : ∃ tr w,
    machine.exec [] (loadVirtualDevices []) startedSession = some (tr, w) ∧
      (w.conns 0).sessionStarted = true ∧ (∃ a d, (w.conns 0).device = some a ∧ w.heap a = some d) ∧
        (RequestSafe w 0 reportChunk (answering []) ↔
          RequestAdmissible w 0 reportChunk (answering [])) := by
  obtain ⟨⟨tr, w⟩, he⟩ : ∃ r, machine.exec [] (loadVirtualDevices []) startedSession = some r :=
    Option.isSome_iff_exists.mp (by decide)
  have henabled := startedSession_enabled
  rw [he] at henabled
  obtain ⟨hstarted, henabled⟩ := of_decide_eq_true henabled
  have hexact := stateMachine_exact (Machine.Run.start.exec he)
  exact ⟨tr, w, he, hstarted, hexact.1.2 0 hstarted, hexact.2 0 _ _ henabled⟩

/-- A good `login` on a fresh connection follows the NULL pointer. -/
theorem not_requestSafe_login :
    ¬ ∀ (devices : List Device) (tr : List (World × Action)) (w : World),
      machine.Run (loadVirtualDevices devices) tr w → ∀ k chunk env,
        machine.enabled w (.read k chunk env) → RequestSafe w k chunk env := by
  intro h
  obtain ⟨⟨tr, w⟩, he⟩ : ∃ r, machine.exec [] (loadVirtualDevices []) [.accept] = some r :=
    Option.isSome_iff_exists.mp (by decide)
  have hfinal : (machine.exec [] (loadVirtualDevices []) [.accept]).all (fun r =>
      machine.enabled r.2 (.read 0 (ascii "login 1234" ++ [0]) (answering [])) ∧
        (match r.2.step (.read 0 (ascii "login 1234" ++ [0]) (answering [])) with
          | .error .nullDeref => true
          | _ => false) = true) = true := by decide
  rw [he] at hfinal
  obtain ⟨henabled, hnull⟩ := of_decide_eq_true hfinal
  have hsafe := (h [] tr w (Machine.Run.start.exec he) 0 _ _ henabled).noNull
  split at hnull
  · rename_i heq
    exact hsafe heq
  · cases hnull

end World

end Domoio
