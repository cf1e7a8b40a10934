import Domoio.Operations

/-
  File:      Domoio/Simulation.lean
  Subject:   The device server refines the session model: every completed step is one change.

  * `World.change` -- the change an action makes, decided before the step;
  * `read_overread`, `read_null`, `read_uncaught`, `read_dropped`, `read_change` -- the five ways a
    read can go;
  * `World.step_change`, `World.wf_of_run` -- the simulation, for a step and for a run.
-/

namespace Domoio

open Lib

namespace World

variable {w w' w'' : World} {c : Change} {k j : ConnId} {env : Env}

/-! ## 1. Requests -/

/-- The world after a request was handed to `dispatch_request`. -/
def logged (w : World) (k : ConnId) (str : Bytes) : World :=
  w.updConn k fun c => { c with requests := c.requests ++ [str] }

/-- The command a request names, with its parameters. -/
def requestCommand (str : Bytes) : Option (Command × List Bytes) :=
  match requestParams str with
  | [] => none
  | name :: params => (deviceCommands.lookup name).map fun cmd => (cmd, params)

/-- The request is a command without its parameters. -/
def requestMissing (str : Bytes) : Prop :=
  ∃ cmd params, requestCommand str = some (cmd, params) ∧ params.length < cmd.reads

/-- The request is a command that follows a NULL device pointer. -/
def requestNull (env : Env) (w : World) (k : ConnId) (str : Bytes) : Prop :=
  ∃ cmd params, requestCommand str = some (cmd, params) ∧ cmd.reads ≤ params.length ∧
    nullAccess env w k params cmd

/-- The change a request makes. A command without its parameters throws, which ends a started
    session. -/
def requestChange (env : Env) (w : World) (k : ConnId) (str : Bytes) : Change :=
  match requestCommand str with
  | none => .none
  | some (cmd, params) =>
      if params.length < cmd.reads then
        if (w.conns k).sessionStarted then .dropped k else .none
      else commandChange env w k params cmd

section Dispatch

variable {str : Bytes}

/-- Logging a request leaves sessions, devices and the sending side alone. -/
theorem sessions_logged (w : World) (k : ConnId) (str : Bytes) :
    (w.logged k str).sessions = w.sessions := by
  refine Sessions.ext ?_ rfl rfl rfl rfl rfl
  funext j
  by_cases hj : j = k
  · subst hj
    simp only [sessions, logged, updConn_self]
    rfl
  · simp only [sessions, logged, updConn_ne _ _ _ hj]

theorem logged_self (w : World) (k : ConnId) (str : Bytes) : (w.logged k str).conns k =
    { w.conns k with requests := (w.conns k).requests ++ [str] } := updConn_self _ _ _

theorem WF.logged (h : w.WF) (k : ConnId) (str : Bytes) : (w.logged k str).WF where
  sessions := by
    rw [sessions_logged]
    exact h.sessions
  keyed hd := h.keyed hd

theorem commandChange_logged (env : Env) (w : World) (k : ConnId) (str : Bytes)
    (params : List Bytes) (cmd : Command) :
    commandChange env (w.logged k str) k params cmd = commandChange env w k params cmd := by
  cases cmd with
  | aps =>
      simp only [commandChange, apsNamesPorts, logged_self]
      rfl
  | createSession | login | exit | set => rfl

theorem nullAccess_logged (env : Env) (w : World) (k : ConnId) (str : Bytes)
    (params : List Bytes) (cmd : Command) :
    nullAccess env (w.logged k str) k params cmd ↔ nullAccess env w k params cmd := by
  cases cmd with
  | createSession =>
      simp only [nullAccess, logged_self]
      rfl
  | login | aps => simp only [nullAccess, logged_self]
  | exit | set => rfl

/-- A request that names no command. -/
theorem dispatch_unknown (hc : requestCommand str = none) :
    w.dispatchRequest env k str = .ok (.done ((w.logged k str).send k (ascii "400 Bad Request"))) := by
  unfold requestCommand at hc
  unfold dispatchRequest
  cases hwords : requestParams str with
  | nil => rfl
  | cons name params =>
      rw [hwords] at hc
      simp only [executeCallback, Option.map_eq_none_iff.mp hc]
      rfl

variable (w k env) in
/-- A request that names a command. -/
theorem dispatch_command {cmd : Command} {params : List Bytes}
    (hc : requestCommand str = some (cmd, params)) :
    ∃ name, w.dispatchRequest env k str = cmd.callback env (w.logged k str) k (name :: params) := by
  unfold requestCommand at hc
  unfold dispatchRequest
  cases hwords : requestParams str with
  | nil =>
      rw [hwords] at hc
      cases hc
  | cons name params' =>
      rw [hwords] at hc
      obtain ⟨cmd', hcmd, heq⟩ := Option.map_eq_some_iff.mp hc
      cases heq
      exact ⟨name, by simp only [executeCallback, hcmd]; rfl⟩

theorem requestChange_missing (hm : requestMissing str) (hs : (w.conns k).sessionStarted = true) :
    requestChange env w k str = .dropped k := by
  obtain ⟨cmd, params, hc, hlt⟩ := hm
  simp only [requestChange, hc]
  rw [if_pos hlt, if_pos hs]

theorem dispatch_missing (hm : requestMissing str) :
    w.dispatchRequest env k str = .ok (.thrown (w.logged k str)) := by
  obtain ⟨cmd, params, hc, hlt⟩ := hm
  obtain ⟨name, hd⟩ := dispatch_command w k env hc
  rw [hd]
  exact callback_missing hlt

theorem dispatch_null (hn : requestNull env w k str) :
    w.dispatchRequest env k str = .error .nullDeref := by
  obtain ⟨cmd, params, hc, hle, hnull⟩ := hn
  obtain ⟨name, hd⟩ := dispatch_command w k env hc
  rw [hd]
  exact callback_null hle ((nullAccess_logged env w k str params cmd).mpr hnull)

/-- A request that is neither is handled, and what it does is the request's change. -/
theorem dispatch_change (h : w.WF) (ho : (w.conns k).isOpen = true) (hm : ¬ requestMissing str)
    (hn : ¬ requestNull env w k str) :
    ∃ w', w.dispatchRequest env k str = .ok (.done w') ∧
      w.sessions.Admitted (requestChange env w k str) ∧
      Follows (w.logged k str) (requestChange env w k str) w' := by
  cases hc : requestCommand str with
  | none =>
      rw [dispatch_unknown hc]
      simp only [requestChange, hc]
      exact ⟨_, rfl, trivial, follows_send _ _ _⟩
  | some p =>
      obtain ⟨cmd, params⟩ := p
      obtain ⟨name, hd⟩ := dispatch_command w k env hc
      have hlt : ¬ params.length < cmd.reads := fun hlt => hm ⟨cmd, params, hc, hlt⟩
      have hnull : ¬ nullAccess env (w.logged k str) k params cmd := fun hnull =>
        hn ⟨cmd, params, hc, Nat.le_of_not_lt hlt,
          (nullAccess_logged env w k str params cmd).mp hnull⟩
      have ho' : ((w.logged k str).conns k).isOpen = true := by
        rw [logged_self]
        exact ho
      have hcb := callback_change name (h.logged k str) ho' (Nat.le_of_not_lt hlt) hnull
      rw [commandChange_logged, sessions_logged] at hcb
      simp only [requestChange, hc]
      rw [if_neg hlt, hd]
      exact hcb

end Dispatch

/-! ## 2. Steps -/

/-- The request a chunk read on connection `k` is taken for. -/
def chunkRequest (w : World) (k : ConnId) (chunk : Bytes) : Option Bytes :=
  requestOf (w.conns k).sessionStarted (receiveBuffer chunk) chunk.length

/-- The change an action makes. -/
def change (w : World) : Action → Change
  | .accept => .accepted
  | .acceptError => .skipped
  | .read k chunk env =>
      match w.chunkRequest k chunk with
      | some str => requestChange env w k str
      | none => .none
  | .readError k _ => .gone k
  | .written _ | .httpSetPort _ _ _ | .jsSetPortValue _ _ _ _ => .none

/-- The requests an action hands to `dispatch_request` on connection `j`. -/
def requested (w : World) (j : ConnId) : Action → List Bytes
  | .read k chunk _ => if j = k then (w.chunkRequest k chunk).toList else []
  | _ => []

section Step

variable {chunk str : Bytes}

/-- An exception inside a session: the session is given up and the connection closed. -/
theorem dropped_follows (w : World) (k : ConnId) : ∃ w',
    ((w.updConn k fun c => { c with sessionStarted := false }).send k
      (ascii "400 Bad Request")).close k = .ok w' ∧ Follows w (.dropped k) w' := by
  rw [send, updConn_updConn]
  refine ⟨_, close_idle (by simp), ?_⟩
  rw [updConn_updConn]
  refine ⟨Sessions.ext ?_ rfl rfl rfl rfl rfl, fun hk => hk, fun j => ?_⟩
  · refine sessions_conn (k := k) (f := fun l => { l with started := false, socketOpen := false })
      ?_ fun j hj => updConn_ne _ _ _ hj
    rw [updConn_self]
    simp [DeviceConnection.link]
  · by_cases hj : j = k
    · subst hj
      simp
    · rw [updConn_ne _ _ _ hj]

/-- Reading a chunk that runs off the buffer. -/
theorem read_overread (hr : w.chunkRequest k chunk = none) :
    w.handleRead env k chunk = .error .overread := by
  unfold chunkRequest at hr
  simp only [handleRead, processInput, hr]
  rfl

/-- A request whose handler goes wrong. -/
theorem read_error {e : Fault} (hr : w.chunkRequest k chunk = some str)
    (hd : w.dispatchRequest env k str = .error e) : w.handleRead env k chunk = .error e := by
  unfold chunkRequest at hr
  simp only [handleRead, processInput, hr, hd]
  split <;> rfl

theorem read_null (hr : w.chunkRequest k chunk = some str) (hn : requestNull env w k str) :
    w.handleRead env k chunk = .error .nullDeref := read_error hr (dispatch_null hn)

/-- A command without its parameters, outside a session: nothing catches the exception. -/
theorem read_uncaught (hr : w.chunkRequest k chunk = some str) (hm : requestMissing str)
    (hs : (w.conns k).sessionStarted = false) :
    w.handleRead env k chunk = .error .uncaught := by
  rw [chunkRequest, hs] at hr
  simp only [handleRead, processInput, hs, hr, dispatch_missing hm]
  rfl

/-- A command without its parameters, inside a session: the handler's end. -/
theorem read_dropped_eq (hr : w.chunkRequest k chunk = some str) (hm : requestMissing str)
    (hs : (w.conns k).sessionStarted = true) :
    w.handleRead env k chunk = (((w.logged k str).updConn k fun c =>
      { c with sessionStarted := false }).send k (ascii "400 Bad Request")).close k := by
  rw [chunkRequest, hs] at hr
  simp only [handleRead, processInput, hs, hr, dispatch_missing hm, if_true, bind, Except.bind]
  generalize World.close _ k = closed
  cases closed <;> rfl

variable (env) in
/-- A command without its parameters, inside a session. -/
theorem read_dropped (hr : w.chunkRequest k chunk = some str) (hm : requestMissing str)
    (hs : (w.conns k).sessionStarted = true) :
    ∃ w', w.handleRead env k chunk = .ok w' ∧ Follows (w.logged k str) (.dropped k) w' := by
  obtain ⟨w', hw', hf⟩ := dropped_follows (w.logged k str) k
  exact ⟨w', by rw [read_dropped_eq hr hm hs, hw'], hf⟩

/-- A request whose handler returns. -/
theorem read_done (hr : w.chunkRequest k chunk = some str)
    (hd : w.dispatchRequest env k str = .ok (.done w')) : w.handleRead env k chunk = .ok w' := by
  unfold chunkRequest at hr
  simp only [handleRead, processInput, hr, hd]
  split <;> rfl

/-- Any other request. -/
theorem read_change (h : w.WF) (ho : (w.conns k).isOpen = true)
    (hr : w.chunkRequest k chunk = some str) (hm : ¬ requestMissing str)
    (hn : ¬ requestNull env w k str) :
    ∃ w', w.handleRead env k chunk = .ok w' ∧
      w.sessions.Admitted (requestChange env w k str) ∧
      Follows (w.logged k str) (requestChange env w k str) w' := by
  obtain ⟨w', hw', hc, hf⟩ := dispatch_change h ho hm hn
  exact ⟨w', read_done hr hw', hc, hf⟩

/-- A `set_value` call's effects are not seen by the sessions. -/
theorem applyEffect_follows {a : Addr} {d : DeviceState} {e : SetEffect} (hd : w.heap a = some d)
    (hi : identOf e.device = identOf d) (hk : d.Keyed → e.device.Keyed) :
    Follows w .none (w.applyEffect a e) := by
  obtain ⟨-, hheap, -⟩ := publishes_frame w e.events
  have hsame := (signals_heap_events _ e.device.networkSignals e.signals).1.trans hheap
  have hd' := (congrFun hsame a).trans hd
  exact ((follows_publishes w e.events).quiet (follows_signals _ _ e.signals)).quiet
    (follows_store hd' hi hk)

section Registered

variable {deviceId portId : Int32} {a : Addr} {d : DeviceState}
  {call : DeviceState → PortState → SetEffect}

theorem setRegistered_noPort (hx : w.find deviceId = some a) (hd : w.heap a = some d)
    (hp : d.port portId = none) : w.setRegistered deviceId portId call = .ok w := by
  simp only [setRegistered, hx, deref, hd, bind, Except.bind, hp]
  rfl

theorem setRegistered_port {p : PortState} (hx : w.find deviceId = some a) (hd : w.heap a = some d)
    (hp : d.port portId = some p) :
    w.setRegistered deviceId portId call = .ok (w.applyEffect a (call d p)) := by
  simp only [setRegistered, hx, deref, hd, bind, Except.bind, hp]
  rfl

end Registered

/-- Setting a port through the registry never goes wrong, and the sessions do not see it. -/
theorem setRegistered_follows (h : w.WF) (deviceId portId : Int32)
    (value : DeviceState → PortState → Int32) :
    ∃ w', w.setRegistered deviceId portId (fun d p => d.setValue p (value d p)) = .ok w' ∧
      Follows w .none w' := by
  cases hx : w.find deviceId with
  | none => exact ⟨w, by rw [setRegistered, hx], Follows.refl w⟩
  | some a =>
      obtain ⟨d, hd, -⟩ := h.find hx
      cases hp : d.port portId with
      | none => exact ⟨w, setRegistered_noPort hx hd hp, Follows.refl w⟩
      | some p =>
          refine ⟨_, setRegistered_port hx hd hp, applyEffect_follows hd ?_ fun hk => hk.setValue hp _ _⟩
          simp [identOf]

theorem accept_follows (w : World) : Follows w .accepted w.handleAccept where
  sessions := by
    refine Sessions.ext ?_ rfl rfl rfl rfl rfl
    refine sessions_conn (k := w.nextConn) (f := fun l => { l with socketOpen := true }) ?_
      fun j hj => updConn_ne _ _ _ hj
    show ((w.updConn w.nextConn (·.start)).conns w.nextConn).link = _
    rw [updConn_self]
    simp [DeviceConnection.start, DeviceConnection.link]
  keyed hk := hk
  requests j := by
    show ((w.updConn w.nextConn (·.start)).conns j).requests = _
    by_cases hj : j = w.nextConn
    · subst hj
      simp [DeviceConnection.start]
    · rw [updConn_ne _ _ _ hj]

/-- The connection that waits for an accept has no device, so deleting it does nothing more. -/
theorem acceptError_eq (h : w.WF) :
    w.handleAcceptError = .ok { w with nextConn := w.nextConn + 1 } := by
  have hd : (w.conns w.nextConn).device = none :=
    congrArg Link.device (h.sessions.next_fresh (k := w.nextConn) (Nat.le_refl _))
  simp only [handleAcceptError, destroy, hd]
  rfl

/-- What every completed step does: the action's change, and its requests are logged. -/
structure Stepped (w : World) (act : Action) (w' : World) : Prop where
  admitted : w.sessions.Admitted (w.change act)
  sessions : w'.sessions = w.sessions.apply (w.change act)
  wf : w'.WF
  requests : ∀ j, (w'.conns j).requests = (w.conns j).requests ++ w.requested j act

/-- An action that hands over no request. -/
theorem Stepped.of_follows {act : Action} (h : w.WF) (hc : w.sessions.Admitted (w.change act))
    (hf : Follows w (w.change act) w') (hr : ∀ j, w.requested j act = []) : Stepped w act w' where
  admitted := hc
  sessions := hf.sessions
  wf := h.follows hc hf
  requests j := by rw [hf.requests, hr, List.append_nil]

/-- A read whose chunk is taken for the request `str`. -/
theorem Stepped.of_request (h : w.WF) (hr : w.chunkRequest k chunk = some str)
    (hc : w.sessions.Admitted c) (hf : Follows (w.logged k str) c w')
    (hch : w.change (.read k chunk env) = c) : Stepped w (.read k chunk env) w' where
  admitted := hch.symm ▸ hc
  sessions := by
    rw [hf.sessions, sessions_logged, hch]
  wf := by
    rw [← sessions_logged w k str] at hc
    exact (h.logged k str).follows hc hf
  requests j := by
    rw [hf.requests]
    by_cases hj : j = k
    · subst hj
      simp [logged, requested, hr]
    · simp [logged, updConn_ne _ _ _ hj, requested, hj]

/-- A read: its chunk makes no request, or one that is dropped, or one that is taken. -/
theorem Stepped.read (h : w.WF) (he : w.enabled (.read k chunk env))
    (hs : w.step (.read k chunk env) = .ok w') : Stepped w (.read k chunk env) w' := by
  obtain ⟨ho, -, -⟩ := he
  rw [step] at hs
  cases hr : w.chunkRequest k chunk with
  | none =>
      rw [read_overread hr] at hs
      cases hs
  | some str =>
      have hch : w.change (.read k chunk env) = requestChange env w k str := by
        simp only [change, hr]
      by_cases hn : requestNull env w k str
      · rw [read_null hr hn] at hs
        cases hs
      by_cases hm : requestMissing str
      · cases hst : (w.conns k).sessionStarted with
        | false =>
            rw [read_uncaught hr hm hst] at hs
            cases hs
        | true =>
            obtain ⟨w₁, hw₁, hf⟩ := read_dropped env hr hm hst
            rw [hw₁] at hs
            cases hs
            have hadm : w.sessions.Admitted (.dropped k) := ⟨ho, hst⟩
            exact .of_request h hr hadm hf (hch.trans (requestChange_missing hm hst))
      · obtain ⟨w₁, hw₁, hc, hf⟩ := read_change h ho hr hm hn
        rw [hw₁] at hs
        cases hs
        exact .of_request h hr hc hf hch

/-- A failed read closes the link. -/
theorem readError_follows (w : World) (k : ConnId) (e : ReadError) :
    Follows w (w.change (.readError k e)) (w.handleReadError k e) where
  sessions := by
    refine Sessions.ext ?_ rfl rfl rfl rfl rfl
    refine sessions_conn (k := k) (f := fun l => { l with disconnected := true }) ?_
      fun j hj => updConn_ne _ _ _ hj
    rw [handleReadError, updConn_self]
    rfl
  keyed hk := hk
  requests j := by
    by_cases hj : j = k
    · subst hj
      simp [handleReadError]
    · rw [handleReadError, updConn_ne _ _ _ hj]

/-- The simulation of one step. -/
theorem step_change {act : Action} (h : w.WF) (he : w.enabled act) (hs : w.step act = .ok w') :
    Stepped w act w' := by
  cases act with
  | accept =>
      cases hs
      exact .of_follows h trivial (accept_follows w) fun _ => rfl
  | acceptError =>
      rw [step, acceptError_eq h] at hs
      cases hs
      exact .of_follows h trivial ⟨rfl, fun hk => hk, fun _ => rfl⟩ fun _ => rfl
  | read k chunk env => exact .read h he hs
  | readError k e =>
      cases hs
      exact .of_follows h he (readError_follows w k e) fun _ => rfl
  | written k =>
      cases hs
      exact .of_follows h trivial (follows_updConn w k (by simp) (by simp)) fun _ => rfl
  | httpSetPort deviceId portId doc =>
      obtain ⟨w₁, hw₁, hf⟩ := setRegistered_follows h deviceId portId
        fun _ p => DeviceState.httpValue p doc
      simp only [step, DeviceState.httpSetPort_eq, hw₁] at hs
      cases hs
      exact .of_follows h trivial hf fun _ => rfl
  | jsSetPortValue deviceId portId value junk =>
      obtain ⟨w₁, hw₁, hf⟩ := setRegistered_follows h deviceId portId
        fun _ _ => DeviceState.jsValue value junk
      simp only [step, DeviceState.jsSetPortValue_eq, hw₁] at hs
      cases hs
      exact .of_follows h trivial hf fun _ => rfl

end Step

/-! ## 3. Runs -/

theorem wf_empty : ({} : World).WF where
  sessions :=
    { device_ident := fun hd => by cases hd
      registry_ident := fun hx => by simp [sessions, find] at hx
      ident_lt := fun ha => by simp [sessions] at ha
      started_device := fun hs => by cases hs
      idle_device := fun ho => by cases ho
      next_fresh := fun _ => rfl }
  keyed hd := by cases hd

/-- Registering the state of a device keeps the invariant. -/
theorem WF.connect (h : w.WF) (d : Device) : (w.connect d).1.WF where
  sessions := by
    rw [sessions_connect]
    exact h.sessions.registered d.id d.isVirtual
  keyed he := keyed_connect w d (fun _ _ => h.keyed) _ _ he

/-- What holds of the empty world and is kept when a virtual device is registered holds when the
    server starts. -/
theorem loadVirtualDevices_induction {P : World → Prop} (h0 : P {})
    (hstep : ∀ w d, d.isVirtual = true → P w → P (w.connect d).1) (devices : List Device) :
    P (loadVirtualDevices devices) := by
  have hfold : ∀ (l : List Device) (w : World), P w →
      P (l.foldl (fun w d => if d.isVirtual then (w.connect d).1 else w) w) := by
    intro l
    induction l with
    | nil => exact fun w hw => hw
    | cons d l ih =>
        intro w hw
        rw [List.foldl_cons]
        split
        · rename_i hv
          exact ih _ (hstep w d hv hw)
        · exact ih _ hw
  exact hfold devices {} h0

/-- The server starts well formed. -/
theorem wf_loadVirtualDevices (devices : List Device) : (loadVirtualDevices devices).WF :=
  loadVirtualDevices_induction wf_empty (fun _ d _ hw => hw.connect d) devices

/-- The server starts without connections and events, and only virtual devices are live. -/
theorem loadVirtualDevices_frame (devices : List Device) :
    (∀ k, (loadVirtualDevices devices).conns k = {}) ∧ (loadVirtualDevices devices).events = [] ∧
      ∀ a d, (loadVirtualDevices devices).heap a = some d → d.isVirtual = true := by
  refine loadVirtualDevices_induction (P := fun w => (∀ k, w.conns k = {}) ∧ w.events = [] ∧
    ∀ a d, w.heap a = some d → d.isVirtual = true) ?_ ?_ devices
  · exact ⟨fun _ => rfl, rfl, fun a d hd => by cases hd⟩
  · rintro w d hv ⟨hc, he, hh⟩
    refine ⟨hc, he, fun a e hae => ?_⟩
    by_cases ha : a = w.nextAddr
    · subst ha
      simp only [World.connect, Function.update_self, Option.some.injEq] at hae
      subst hae
      exact hv
    · simp only [World.connect, Function.update_of_ne ha] at hae
      exact hh a e hae

instance (w : World) (act : Action) : Decidable (machine.enabled w act) :=
  match act with
  | .read k chunk _ => inferInstanceAs (Decidable ((w.conns k).isOpen ∧ 1 ≤ chunk.length ∧
      chunk.length ≤ clientBufferMaxLength))
  | .readError k _ => inferInstanceAs (Decidable ((w.conns k).isOpen = true))
  | .written k => inferInstanceAs (Decidable (0 < (w.conns k).outstanding))
  | .accept | .acceptError | .httpSetPort _ _ _ | .jsSetPortValue _ _ _ _ => .isTrue trivial

/-- Every state of a run of the server is well formed. -/
theorem wf_of_run {devices : List Device} {tr : List (World × Action)}
    (hrun : machine.Run (loadVirtualDevices devices) tr w) : Machine.States WF tr w :=
  hrun.invariant_all (wf_loadVirtualDevices devices) fun _ _ _ hw he hs =>
    (step_change hw he hs).wf

/-- An environment whose database holds these devices. -/
def answering (devices : List Device) : Env where
  loadFromDb id := devices.find? fun d => d.id = id
  loadFromDb_id h := by simpa using List.find?_some h
  iv := List.replicate 16 7
  clock := 0
  junk _ := (0, 0)

end World

end Domoio
