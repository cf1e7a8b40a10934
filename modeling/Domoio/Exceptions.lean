import Domoio.Safety

/-
  File:      Domoio/Exceptions.lean
  Subject:   Exceptions on the device port.

  A handler that reads a parameter that is not there throws. Outside a session nothing catches that
  before `io_service.run`, and the server ends; inside one `process_input` does, and gives the
  session up (`read_uncaught`, `read_dropped`). `contained_exact`: a request is contained exactly
  when its command has its parameters and follows no NULL device pointer.
-/

namespace Domoio

open Lib

namespace World

/-- What a refused command line must not change: the session of the connection, the registry, the
    devices with their ports. -/
structure Untouched (w w' : World) (k : ConnId) : Prop where
  sessionStarted : (w'.conns k).sessionStarted = (w.conns k).sessionStarted
  loggedIn : (w'.conns k).loggedIn = (w.conns k).loggedIn
  device : (w'.conns k).device = (w.conns k).device
  registry : w'.activeDevices = w.activeDevices
  devices : w'.heap = w.heap

/-- The request in a chunk is contained. `dispatch_request` returns, a command line without its
    parameters is answered with an error and changes nothing, and no exception leaves the read. -/
structure Contained (w : World) (k : ConnId) (chunk : Bytes) (env : Env) : Prop where
  returns : ∀ {str}, w.chunkRequest k chunk = some str →
    ∃ w', w.dispatchRequest env k str = .ok (.done w')
  refused : ∀ {str}, w.chunkRequest k chunk = some str → requestMissing str →
    ∃ w' msg, w.step (.read k chunk env) = .ok w' ∧ msg ∈ errorReplies ∧
      (w'.conns k).sent = (w.conns k).sent ++ [((w.conns k).sessionStarted, msg)] ∧
      Untouched w w' k
  noEscape : w.step (.read k chunk env) ≠ .error .uncaught

section Iff

variable {w w' : World} {k : ConnId} {env : Env} {chunk str : Bytes}

/-- A request whose handler returns raises nothing out of the read. -/
theorem read_noEscape (hr : w.chunkRequest k chunk = some str)
    (hd : w.dispatchRequest env k str = .ok (.done w')) :
    w.step (.read k chunk env) ≠ .error .uncaught := by
  rw [step, read_done hr hd]
  simp

/-- A request that throws or follows NULL does not return. -/
theorem dispatch_returns_iff (h : w.WF) (ho : (w.conns k).isOpen = true) :
    (∃ w', w.dispatchRequest env k str = .ok (.done w')) ↔
      ¬ requestMissing str ∧ ¬ requestNull env w k str := by
  constructor
  · intro hd
    obtain ⟨w', hd⟩ := hd
    constructor
    · intro hm
      rw [dispatch_missing hm] at hd
      cases hd
    · intro hn
      rw [dispatch_null hn] at hd
      cases hd
  · intro hc
    obtain ⟨w', hd, -⟩ := dispatch_change h ho hc.1 hc.2
    exact ⟨w', hd⟩

/-- A request is contained exactly when it is not one that throws or follows NULL. -/
theorem contained_iff (h : w.WF) (ho : (w.conns k).isOpen = true) :
    Contained w k chunk env ↔ ∀ str, w.chunkRequest k chunk = some str →
      ¬ requestMissing str ∧ ¬ requestNull env w k str := by
  constructor
  · intro hc str hr
    exact (dispatch_returns_iff h ho).mp (hc.returns hr)
  · intro hc
    refine ⟨fun hr => (dispatch_returns_iff h ho).mpr (hc _ hr),
      fun hr hm => absurd hm (hc _ hr).1, ?_⟩
    cases hr : w.chunkRequest k chunk with
    | none =>
        rw [step, read_overread hr]
        simp
    | some str =>
        obtain ⟨w', hd⟩ := (dispatch_returns_iff h ho).mpr (hc str hr)
        exact read_noEscape hr hd

end Iff

/-- In every state the server reaches the next request is contained exactly when its command has
    its parameters and follows no NULL device pointer. Outside a session a command without its
    parameters ends the server, inside one the session. -/
theorem contained_exact {devices : List Device} {tr : List (World × Action)} {w : World}
    (hrun : machine.Run (loadVirtualDevices devices) tr w) (k : ConnId) (chunk : Bytes) (env : Env)
    (he : machine.enabled w (.read k chunk env)) :
    (Contained w k chunk env ↔ ∀ str, w.chunkRequest k chunk = some str →
      ¬ requestMissing str ∧ ¬ requestNull env w k str) ∧
    ∀ str, w.chunkRequest k chunk = some str → requestMissing str →
      if (w.conns k).sessionStarted then
        ∃ w', w.step (.read k chunk env) = .ok w' ∧ (w'.conns k).sessionStarted = false
      else w.step (.read k chunk env) = .error .uncaught := by
  have hwf := (wf_of_run hrun).2
  refine ⟨contained_iff hwf he.1, ?_⟩
  intro str hr hm
  by_cases hs : (w.conns k).sessionStarted = true
  · rw [if_pos hs, step]
    obtain ⟨w', hw', hf⟩ := read_dropped env hr hm hs
    refine ⟨w', hw', ?_⟩
    have hstarted := congrArg (fun s => (s.conn k).started) hf.sessions
    simpa [Sessions.apply, sessions, DeviceConnection.link] using hstarted
  · rw [if_neg hs, step]
    exact read_uncaught hr hm (by simpa using hs)

/-- The device reports a value in its session. -/
theorem contained_exact_report : ∃ tr w,
    machine.exec [] (loadVirtualDevices []) startedSession = some (tr, w) ∧
      (w.conns 0).sessionStarted = true ∧
      (Contained w 0 reportChunk (answering []) ↔
        ∀ str, w.chunkRequest 0 reportChunk = some str →
          ¬ requestMissing str ∧ ¬ requestNull (answering []) w 0 str) := by
  obtain ⟨⟨tr, w⟩, he⟩ : ∃ r, machine.exec [] (loadVirtualDevices []) startedSession = some r :=
    Option.isSome_iff_exists.mp (by decide)
  have henabled := startedSession_enabled
  rw [he] at henabled
  obtain ⟨hstarted, henabled⟩ := of_decide_eq_true henabled
  exact ⟨tr, w, he, hstarted, (contained_exact (Machine.Run.start.exec he) 0 _ _ henabled).1⟩

/-- A bare `login` on a fresh connection ends the server. -/
theorem not_contained_login :
    ¬ ∀ (devices : List Device) (tr : List (World × Action)) (w : World),
      machine.Run (loadVirtualDevices devices) tr w → ∀ k chunk env,
        machine.enabled w (.read k chunk env) → Contained w k chunk env := by
  intro h
  obtain ⟨⟨tr, w⟩, he⟩ : ∃ r, machine.exec [] (loadVirtualDevices []) [.accept] = some r :=
    Option.isSome_iff_exists.mp (by decide)
  have hfinal : (machine.exec [] (loadVirtualDevices []) [.accept]).all (fun r =>
      machine.enabled r.2 (.read 0 (ascii "login" ++ [0]) (answering [])) ∧
        r.2.chunkRequest 0 (ascii "login" ++ [0]) = some (ascii "login") ∧
        (r.2.conns 0).sessionStarted = false) = true := by decide
  rw [he] at hfinal
  obtain ⟨henabled, hrequest, hidle⟩ := of_decide_eq_true hfinal
  have hmissing : requestMissing (ascii "login") := ⟨.login, [], by decide, by decide⟩
  exact (h [] tr w (Machine.Run.start.exec he) 0 _ _ henabled).noEscape
    (read_uncaught hrequest hmissing hidle)

end World

end Domoio
