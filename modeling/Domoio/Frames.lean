import Domoio.Commands

/-
  File:      Domoio/Frames.lean
  Subject:   What a session takes for a request (`process_input`, `hex_decode`).

  A frame is the encoding of a string and two bytes behind it. Of a frame the string is dispatched
  (`requestOf_frame`), but of any other chunk something is dispatched too, or it is read past the
  buffer: the decoder reports no error, so the `catch` that answers and closes is not reached from it
  (`frames_exact`).
-/

namespace Domoio

open Lib

namespace World

/-! ## 1. The dispatched requests -/

section Dispatch

variable {m : Type → Type} [Monad m] [MonadLiftT (Except Fault) m]

/-- `DeviceConnection::process_input`, over the code of `dispatch_request`. -/
def processInputOver (dispatch : World → ConnId → Bytes → m Outcome) (w : World) (k : ConnId)
    (data : Bytes) (bytesTransferred : Nat) : m Outcome :=
  let started := (w.conns k).sessionStarted
  match requestOf started data bytesTransferred with
  | none => monadLift (.error .overread : Except Fault Outcome)
  | some str => do
      let outcome ← dispatch w k str
      afterRequest k started outcome

end Dispatch

/-- With `dispatch_request` in its place this is the code. -/
theorem processInput_eq_over (env : Env) (w : World) (k : ConnId) (data : Bytes) (n : Nat) :
    w.processInput env k data n =
      processInputOver (fun w k str => w.dispatchRequest env k str) w k data n :=
  processInput_eq env w k data n

/-- `dispatch_request`, its argument written down. -/
def tracedDispatch (env : Env) (w : World) (k : ConnId) (str : Bytes) :
    ExceptT Fault (StateM (List Bytes)) Outcome := do
  modify (· ++ [str])
  monadLift (w.dispatchRequest env k str)

/-- The requests `process_input` dispatches of a chunk. -/
def dispatched (env : Env) (w : World) (k : ConnId) (chunk : Bytes) : List Bytes :=
  ((processInputOver (tracedDispatch env) w k (receiveBuffer chunk) chunk.length).run []).2

variable {env : Env} {w : World} {k : ConnId} {chunk s : Bytes}

theorem dispatched_eq (env : Env) (w : World) (k : ConnId) (chunk : Bytes) :
    dispatched env w k chunk = (w.chunkRequest k chunk).toList := by
  unfold dispatched processInputOver chunkRequest
  dsimp only
  cases requestOf (w.conns k).sessionStarted (receiveBuffer chunk) chunk.length with
  | none => rfl
  | some str =>
      show ((ExceptT.bindCont (afterRequest k _) (w.dispatchRequest env k str) :
        StateM (List Bytes) _) [str]).2 = [str]
      cases w.dispatchRequest env k str with
      | error e => rfl
      | ok outcome => exact congrArg Prod.snd (afterRequest_run _ outcome [str])

/-! ## 2. Frames -/

/-- The chunk is the encoding of `s` and two bytes. -/
def Frame (s chunk : Bytes) : Prop := ∃ e : Bytes, e.length = 2 ∧ chunk = hexText s ++ e

/-- What the `catch` of `process_input` does. -/
def refuse (w : World) (k : ConnId) : Except Fault World :=
  ((w.updConn k fun c => { c with sessionStarted := false }).send k (ascii "400 Bad Request")).close k

/-- Of a chunk that is a frame its string is dispatched and nothing else; any other chunk is refused
    without anything being dispatched or executed. -/
structure OnlyFrames (env : Env) (w : World) (k : ConnId) (chunk : Bytes) : Prop where
  dispatches : ∀ s, s ∈ dispatched env w k chunk ↔ Frame s chunk
  refuses : (∀ s, ¬ Frame s chunk) →
    calls env w k chunk = [] ∧ w.handleRead env k chunk = w.refuse k

theorem requestOf_frame (hs : (w.conns k).sessionStarted = true) (h : Frame s chunk) :
    w.chunkRequest k chunk = some s := by
  obtain ⟨e, he, rfl⟩ := h
  rw [chunkRequest, hs, requestOf, if_pos rfl, receiveBuffer, List.append_assoc]
  refine hexDecode_hexText s _ _ ?_ ?_
  · rw [List.length_append, length_hexText, he]
    omega
  · rw [List.length_append, length_hexText, he]
    omega

/-- Refusing goes right in any world. -/
theorem refuse_ok (w : World) (k : ConnId) : ∃ w', w.refuse k = .ok w' := by
  obtain ⟨w', hw', -⟩ := dropped_follows (k := k) w
  exact ⟨w', hw'⟩

/-- A chunk that is no frame is not refused: the decoder has something for it, or does not end. -/
theorem not_refused (hno : ∀ s, ¬ Frame s chunk) : ¬ OnlyFrames env w k chunk := by
  intro h
  obtain ⟨w', hw'⟩ := w.refuse_ok k
  have hread := (h.refuses hno).2
  have hnone : w.chunkRequest k chunk = none := by
    rw [Option.eq_none_iff_forall_ne_some]
    intro s hreq
    refine hno s ((h.dispatches s).mp ?_)
    rw [dispatched_eq, hreq]
    exact List.mem_singleton_self s
  rw [read_overread hnone, hw'] at hread
  cases hread

/-- **Requests of a session**: a chunk is handled as it should be exactly where it is a frame. -/
theorem frames_exact (env : Env) (hs : (w.conns k).sessionStarted = true) (chunk : Bytes) :
    OnlyFrames env w k chunk ↔ ∃ s, Frame s chunk := by
  constructor
  · intro h
    by_contra hno
    exact not_refused (not_exists.mp hno) h
  · rintro ⟨s, hframe⟩
    refine ⟨fun s' => ?_, fun h => absurd hframe (h s)⟩
    rw [dispatched_eq, requestOf_frame hs hframe, Option.toList_some, List.mem_singleton]
    constructor
    · rintro rfl
      exact hframe
    · intro hframe'
      exact Option.some.inj ((requestOf_frame hs hframe').symm.trans (requestOf_frame hs hframe))

/-- The server after device 5 has connected and started its session. -/
def sessionWorld : World := opened (answering [{ id := 5 }]) ({} : World).handleAccept 0 { id := 5 }

theorem frames_exact_login :
    OnlyFrames (answering []) sessionWorld 0 (hexText (ascii "login 1234") ++ [0, 10]) :=
  (frames_exact (answering []) rfl _).mpr ⟨ascii "login 1234", [0, 10], rfl, rfl⟩

/-- A command sent in the clear is not refused: its groups are dispatched as bytes. -/
theorem not_frames_garbage : ¬ ∀ (env : Env) (w : World) (k : ConnId) (chunk : Bytes),
    (w.conns k).sessionStarted = true → machine.enabled w (.read k chunk env) →
      OnlyFrames env w k chunk := by
  intro h
  refine not_refused ?_ (h (answering []) sessionWorld 0 (ascii "login 1234" ++ [0, 10]) rfl
    ⟨rfl, by decide, by decide⟩)
  rintro s ⟨e, he, hchunk⟩
  have hlen : 12 = (hexText s ++ e).length := congrArg List.length hchunk
  rw [List.length_append, length_hexText, he] at hlen
  omega

end World

end Domoio
