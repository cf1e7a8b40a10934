import Domoio.Lib.Terminated
import Domoio.Simulation

/-
  File:      Domoio/Segmentation.lean
  Subject:   From the byte stream of a device to the requests of its connection.

  The reader keeps no bytes from one read to the next: every chunk is one request, its C string
  without a session and the decoding of its groups with one. So the requests are the commands where
  each chunk is one whole frame (`requests_of_frames`), and for commands in the clear only there
  (`requests_raw_iff`).
-/

namespace Domoio

open Lib

namespace World

/-- The bytes a device sends for a command: in the clear the string with its NUL, in a session the
    buffer of its encoding and the byte behind it. -/
def frame (sessionStarted : Bool) (cmd : Bytes) (junk : UInt8) : Bytes :=
  if sessionStarted then hexEncode cmd ++ [junk] else terminated cmd

/-- The chunk is a frame of the command. A command in the clear has no NUL. -/
def IsFrame (p : Bool × Bytes) (cmd : Bytes) : Prop :=
  (∃ junk, p.2 = frame p.1 cmd junk) ∧ (p.1 = false → NulFree cmd)

/-- The chunks read on connection `k`, each with the mode it was read in. -/
def chunksOn (k : ConnId) (tr : List (World × Action)) : List (Bool × Bytes) :=
  tr.filterMap fun p =>
    match p.2 with
    | .read j chunk _ => if j = k then some ((p.1.conns k).sessionStarted, chunk) else none
    | _ => none

/-! ## 1. One chunk -/

variable {w w' : World} {k : ConnId} {tr : List (World × Action)}

/-- The request a chunk is taken for, from the mode it is read in. -/
def requestOfChunk (p : Bool × Bytes) : Option Bytes :=
  requestOf p.1 (receiveBuffer p.2) p.2.length

/-- A chunk in the clear is taken for its C string. -/
theorem requestOfChunk_raw {p : Bool × Bytes} {str : Bytes} (hp : p.1 = false)
    (h : requestOfChunk p = some str) : str = cString p.2 := by
  rw [requestOfChunk, hp] at h
  have hstr : str = cString (receiveBuffer p.2) := bufferString_eq_some h
  rw [hstr, receiveBuffer, cString_append_zeroes]

/-- A chunk that is a frame is taken for its command. -/
theorem requestOfChunk_frame {p : Bool × Bytes} {cmd : Bytes} (h : IsFrame p cmd) :
    requestOfChunk p = some cmd := by
  obtain ⟨⟨junk, hp⟩, hfree⟩ := h
  rw [requestOfChunk, hp]
  cases hst : p.1 with
  | false =>
      show bufferString (terminated cmd ++ _) = some cmd
      rw [terminated, List.append_assoc]
      exact bufferString_append_nul (hfree hst) _
  | true =>
      show hexDecode ((hexEncode cmd ++ [junk]) ++ _) _ = some cmd
      rw [hexEncode_eq, List.append_assoc, List.append_assoc]
      refine hexDecode_hexText cmd _ _ ?_ ?_
      · simp [frame, length_hexEncode]
      · simp [frame, length_hexEncode]

/-! ## 2. Runs -/

theorem chunksOn_snoc_read (w : World) (chunk : Bytes) (env : Env) :
    chunksOn k (tr ++ [(w, .read k chunk env)]) =
      chunksOn k tr ++ [((w.conns k).sessionStarted, chunk)] := by
  simp [chunksOn]

/-- An action that hands over no request on `k`, or is no read on `k`. -/
theorem chunksOn_snoc_other (w : World) {act : Action}
    (h : ∀ chunk env, act ≠ .read k chunk env) : chunksOn k (tr ++ [(w, act)]) = chunksOn k tr := by
  rw [chunksOn, List.filterMap_append]
  have hnil : List.filterMap (fun p : World × Action =>
      match p.2 with
      | .read j chunk _ => if j = k then some ((p.1.conns k).sessionStarted, chunk) else none
      | _ => none) [(w, act)] = [] := by
    cases act with
    | read j chunk env =>
        have hj : j ≠ k := by
          intro heq
          subst heq
          exact h chunk env rfl
        simp [hj]
    | accept | acceptError | readError | written | httpSetPort | jsSetPortValue => rfl
  rw [hnil, List.append_nil]
  rfl

theorem requested_other {act : Action} (h : ∀ chunk env, act ≠ .read k chunk env) :
    w.requested k act = [] := by
  cases act with
  | read j chunk env =>
      have hj : k ≠ j := by
        intro heq
        subst heq
        exact h chunk env rfl
      simp [requested, hj]
  | accept | acceptError | readError | written | httpSetPort | jsSetPortValue => rfl

/-- In a run every chunk read on a connection is one request, in order. -/
theorem chunks_requests {devices : List Device}
    (hrun : machine.Run (loadVirtualDevices devices) tr w) (k : ConnId) :
    (chunksOn k tr).map requestOfChunk = (w.conns k).requests.map some := by
  induction hrun with
  | start =>
      rw [(loadVirtualDevices_frame devices).1 k]
      rfl
  | @step tr w w' act hrun he hs ih =>
      have hst := step_change (wf_of_run hrun).2 he hs
      rw [hst.requests]
      by_cases hact : ∃ chunk env, act = .read k chunk env
      · obtain ⟨chunk, env, rfl⟩ := hact
        cases hr : w.chunkRequest k chunk with
        | none =>
            have hstep : w.step (.read k chunk env) = .error .overread := read_overread hr
            have hs' : w.step (.read k chunk env) = .ok w' := hs
            rw [hstep] at hs'
            cases hs'
        | some str =>
            have hreq : requestOfChunk ((w.conns k).sessionStarted, chunk) = some str := hr
            rw [chunksOn_snoc_read, List.map_append, List.map_append, ih, List.map_singleton, hreq]
            simp [requested, hr]
      · push Not at hact
        rw [chunksOn_snoc_other w hact, requested_other hact, List.append_nil, ih]

theorem map_requestOfChunk {ps : List (Bool × Bytes)} {cmds : List Bytes}
    (h : List.Forall₂ IsFrame ps cmds) : ps.map requestOfChunk = cmds.map some := by
  induction h with
  | nil => rfl
  | cons hp _ ih => rw [List.map_cons, List.map_cons, requestOfChunk_frame hp, ih]

/-- Where every chunk is one whole frame, the requests are the commands. -/
theorem requests_of_frames {devices : List Device}
    (hrun : machine.Run (loadVirtualDevices devices) tr w) {cmds : List Bytes}
    (h : List.Forall₂ IsFrame (chunksOn k tr) cmds) : (w.conns k).requests = cmds := by
  have hmap := (chunks_requests hrun k).symm.trans (map_requestOfChunk h)
  exact List.map_injective_iff.mpr (fun _ _ => Option.some.inj) hmap

/-- Without a session the requests are the chunks' C strings. -/
theorem requests_raw {devices : List Device}
    (hrun : machine.Run (loadVirtualDevices devices) tr w)
    (hraw : ∀ p ∈ chunksOn k tr, p.1 = false) :
    (w.conns k).requests = ((chunksOn k tr).map Prod.snd).map cString := by
  have hmap := chunks_requests hrun k
  have hgen : ∀ (ps : List (Bool × Bytes)) (strs : List Bytes), (∀ p ∈ ps, p.1 = false) →
      ps.map requestOfChunk = strs.map some → strs = (ps.map Prod.snd).map cString := by
    intro ps
    induction ps with
    | nil =>
        intro strs _ h
        exact List.map_eq_nil_iff.mp h.symm
    | cons p ps ih =>
        intro strs hp h
        cases strs with
        | nil => cases h
        | cons str strs =>
            simp only [List.map_cons, List.cons.injEq] at h ⊢
            exact ⟨requestOfChunk_raw (hp p List.mem_cons_self) h.1,
              ih strs (fun q hq => hp q (List.mem_cons_of_mem _ hq)) h.2⟩
  exact hgen _ _ hraw hmap

/-- The requests of a connection against the commands its device sent, however the stream was cut.
    Every chunk is one request; with every chunk one whole frame the requests are the commands, in
    the clear and in a session; commands in the clear arrive only so. -/
theorem requests_eq_commands {devices : List Device}
    (hrun : machine.Run (loadVirtualDevices devices) tr w) (k : ConnId) (cmds : List Bytes) :
    (chunksOn k tr).map requestOfChunk = (w.conns k).requests.map some ∧
    (List.Forall₂ IsFrame (chunksOn k tr) cmds → (w.conns k).requests = cmds) ∧
    ((∀ p ∈ chunksOn k tr, p.1 = false) → (∀ cmd ∈ cmds, NulFree cmd ∧ cmd ≠ []) →
      ((chunksOn k tr).map Prod.snd).flatten = (cmds.map terminated).flatten →
      ((w.conns k).requests = cmds ↔ (chunksOn k tr).map Prod.snd = cmds.map terminated)) := by
  refine ⟨chunks_requests hrun k, requests_of_frames hrun, fun hraw hcmds hcat => ?_⟩
  rw [requests_raw hrun hraw]
  exact map_cString_iff hcmds hcat

/-- A device starts its session and leaves: a frame in the clear, a frame in the session. -/
def wholeFrames : List Action :=
  [.accept, .read 0 (terminated (ascii "create_session 5")) (answering [{ id := 5 }]),
    .read 0 (hexEncode (ascii "exit") ++ [0]) (answering [{ id := 5 }])]

theorem requests_eq_commands_wholeFrames : ∃ tr w,
    machine.exec [] (loadVirtualDevices []) wholeFrames = some (tr, w) ∧
      (w.conns 0).requests = [ascii "create_session 5", ascii "exit"] := by
  obtain ⟨⟨tr, w⟩, he⟩ : ∃ r, machine.exec [] (loadVirtualDevices []) wholeFrames = some r :=
    Option.isSome_iff_exists.mp (by decide)
  have hfinal : (machine.exec [] (loadVirtualDevices []) wholeFrames).all (fun r =>
      chunksOn 0 r.1 = [(false, terminated (ascii "create_session 5")),
        (true, hexEncode (ascii "exit") ++ [0])]) = true := by decide
  rw [he] at hfinal
  have hchunks := of_decide_eq_true hfinal
  refine ⟨tr, w, he, (requests_eq_commands (Machine.Run.start.exec he) 0 _).2.1 ?_⟩
  rw [hchunks]
  refine .cons ⟨⟨0, rfl⟩, fun _ => by decide⟩ (.cons ⟨⟨0, rfl⟩, fun h => ?_⟩ .nil)
  cases h

/-- One command cut in two. -/
def cutCommand : List Action :=
  [.accept, .read 0 (ascii "ex") (answering []), .read 0 (ascii "it" ++ [0]) (answering [])]

/-- The two halves are taken for two requests. -/
theorem not_requests_cutCommand :
    ¬ ∀ (devices : List Device) (tr : List (World × Action)) (w : World) (k : ConnId)
      (cmds : List Bytes), machine.Run (loadVirtualDevices devices) tr w →
      (∀ p ∈ chunksOn k tr, p.1 = false) → (∀ cmd ∈ cmds, NulFree cmd ∧ cmd ≠ []) →
      ((chunksOn k tr).map Prod.snd).flatten = (cmds.map terminated).flatten →
      (w.conns k).requests = cmds := by
  intro h
  obtain ⟨⟨tr, w⟩, he⟩ : ∃ r, machine.exec [] (loadVirtualDevices []) cutCommand = some r :=
    Option.isSome_iff_exists.mp (by decide)
  have hfinal : (machine.exec [] (loadVirtualDevices []) cutCommand).all (fun r =>
      (chunksOn 0 r.1).all (fun p => p.1 = false) ∧
        ((chunksOn 0 r.1).map Prod.snd).flatten = terminated (ascii "exit") ∧
          (r.2.conns 0).requests = [ascii "ex", ascii "it"]) = true := by decide
  rw [he] at hfinal
  obtain ⟨hraw, hcat, hrequests⟩ := of_decide_eq_true hfinal
  have heq := h [] tr w 0 [ascii "exit"] (Machine.Run.start.exec he)
    (fun p hp => by simpa using List.all_eq_true.mp hraw p hp) (by decide) (by simpa using hcat)
  rw [hrequests] at heq
  exact absurd heq (by decide)

end World

end Domoio
