import Domoio.Devices
import Domoio.Sessions

/-
  File:      Domoio/Operations.lean
  Subject:   What the operations and the commands of the device server do to its sessions.

  * `World.sessions` -- what the session model sees of a world; `World.WF` -- the invariant;
  * `World.Follows` -- a world follows from another by a change, its request log left alone;
  * `commandChange` -- the change a command makes, decided before it runs: from its parameters, the
    database's answer and the ports of the device;
  * one lemma per operation, and for the command handlers three that say all they can do:
    `callback_missing` (it throws), `callback_null` (it follows a NULL pointer), `callback_change`.
-/

namespace Domoio

open Lib

/-- What the session model keeps of a connection. -/
def DeviceConnection.link (c : DeviceConnection) : Link where
  device := c.device
  started := c.sessionStarted
  socketOpen := c.socketOpen
  disconnected := c.disconnected

@[simp] theorem DeviceConnection.link_send (c : DeviceConnection) (msg : Bytes) :
    (c.send msg).link = c.link := by
  simp [link]

@[simp] theorem DeviceConnection.link_handleWrite (c : DeviceConnection) :
    c.handleWrite.link = c.link := by
  rw [handleWrite_frame]
  rfl

@[simp] theorem DeviceConnection.requests_handleWrite (c : DeviceConnection) :
    c.handleWrite.requests = c.requests := by
  rw [handleWrite_frame]

namespace World

/-! ## 1. The sessions of a world -/

/-- The mark an event leaves: session events of a connection only. -/
def mark : Option ConnId × Event → Option (ConnId × Mark Int32)
  | (some k, e) =>
      match e.type with
      | .deviceConnected => some (k, .start e.deviceId)
      | .deviceDisconnected => some (k, .finish e.deviceId)
      | .portSet => none
  | (none, _) => none

/-- What the session model keeps of a device state. -/
def identOf (d : DeviceState) : Int32 × Bool := (d.id, d.isVirtual)

def sessions (w : World) : Sessions where
  conn k := (w.conns k).link
  next := w.nextConn
  ident a := (w.heap a).map identOf
  nextAddr := w.nextAddr
  registry := w.find
  marks := w.events.filterMap mark

/-- The invariant of the server: the sessions are well formed, and the ports of every device state
    are keyed by their own ids. -/
structure WF (w : World) : Prop where
  sessions : w.sessions.WF
  keyed : ∀ {a d}, w.heap a = some d → d.Keyed

/-- `w'` follows from `w` by a change: its sessions are changed so, the ports stay keyed and no
    request is logged. -/
structure Follows (w : World) (c : Change) (w' : World) : Prop where
  sessions : w'.sessions = w.sessions.apply c
  keyed : (∀ a d, w.heap a = some d → d.Keyed) → ∀ a d, w'.heap a = some d → d.Keyed
  requests : ∀ j, (w'.conns j).requests = (w.conns j).requests

variable {w w' w'' : World} {c : Change} {k j : ConnId} {env : Env}

theorem Follows.refl (w : World) : Follows w .none w := ⟨rfl, id, fun _ => rfl⟩

theorem Follows.quiet (h : Follows w c w') (h' : Follows w' .none w'') : Follows w c w'' where
  sessions := h'.sessions.trans h.sessions
  keyed := h'.keyed ∘ h.keyed
  requests j := (h'.requests j).trans (h.requests j)

theorem Follows.after (h : Follows w .none w') (h' : Follows w' c w'') : Follows w c w'' where
  sessions := by rw [h'.sessions, h.sessions]; rfl
  keyed := h'.keyed ∘ h.keyed
  requests j := (h'.requests j).trans (h.requests j)

/-- Following an admitted change keeps the invariant. -/
theorem WF.follows (h : w.WF) (hc : w.sessions.Admitted c) (hf : Follows w c w') : w'.WF where
  sessions := by
    rw [hf.sessions]
    exact h.sessions.apply hc
  keyed hd := hf.keyed (fun _ _ => h.keyed) _ _ hd

theorem WF.quiet (h : w.WF) (hf : Follows w .none w') : w'.WF :=
  h.follows (c := .none) trivial hf

/-- A connection's device pointer leads to a device state. -/
theorem WF.deref (h : w.WF) {a : Addr} (hd : (w.conns k).device = some a) :
    ∃ d, w.heap a = some d := by
  obtain ⟨p, hp⟩ := h.sessions.device_ident (k := k) hd
  obtain ⟨d, hd, -⟩ := Option.map_eq_some_iff.mp hp
  exact ⟨d, hd⟩

theorem WF.find (h : w.WF) {x : Int32} {a : Addr} (hx : w.find x = some a) :
    ∃ d, w.heap a = some d ∧ d.id = x := by
  obtain ⟨v, hv⟩ := h.sessions.registry_ident (x := x) hx
  obtain ⟨d, hd, hid⟩ := Option.map_eq_some_iff.mp hv
  exact ⟨d, hd, congrArg Prod.fst hid⟩

theorem WF.started (h : w.WF) (hs : (w.conns k).sessionStarted = true) :
    ∃ a d, (w.conns k).device = some a ∧ w.heap a = some d := by
  obtain ⟨a, ha⟩ := h.sessions.started_device (k := k) hs
  obtain ⟨d, hd⟩ := h.deref ha
  exact ⟨a, d, ha, hd⟩

theorem WF.idle (h : w.WF) (ho : (w.conns k).isOpen = true)
    (hs : (w.conns k).sessionStarted = false) : (w.conns k).device = none :=
  h.sessions.idle_device (k := k) ho hs

/-! ## 2. Operations -/

section Ops

variable (w : World) (k : ConnId) (f : DeviceConnection → DeviceConnection)

@[simp] theorem updConn_self : (w.updConn k f).conns k = f (w.conns k) := by simp [updConn]

theorem updConn_ne {j : ConnId} (h : j ≠ k) : (w.updConn k f).conns j = w.conns j := by
  simp [updConn, h]

@[simp] theorem send_self (msg : Bytes) : (w.send k msg).conns k = (w.conns k).send msg := by
  simp [send]

theorem send_ne (msg : Bytes) {j : ConnId} (h : j ≠ k) :
    (w.send k msg).conns j = w.conns j := updConn_ne _ _ _ h

@[simp] theorem updConn_updConn (g : DeviceConnection → DeviceConnection) :
    (w.updConn k f).updConn k g = w.updConn k (g ∘ f) := by
  simp [updConn]

end Ops

/-- The connections of the sessions after one connection changes. -/
theorem sessions_conn {f : Link → Link} (hk : (w'.conns k).link = f (w.conns k).link)
    (hj : ∀ j, j ≠ k → w'.conns j = w.conns j) :
    w'.sessions.conn = w.sessions.setConn k f := by
  funext j
  by_cases hjk : j = k
  · subst hjk
    simpa [sessions] using hk
  · rw [Sessions.setConn_ne _ _ _ hjk]
    simp only [sessions, hj j hjk]

/-- A change of a connection's sending side is not seen. -/
theorem follows_updConn (w : World) (k : ConnId) {f : DeviceConnection → DeviceConnection}
    (hl : (f (w.conns k)).link = (w.conns k).link)
    (hr : (f (w.conns k)).requests = (w.conns k).requests) : Follows w .none (w.updConn k f) where
  sessions := by
    refine Sessions.ext ?_ rfl rfl rfl rfl rfl
    funext j
    by_cases hjk : j = k
    · subst hjk
      simpa [sessions, Sessions.apply] using hl
    · simp only [sessions, updConn_ne _ _ _ hjk]
      rfl
  keyed h := h
  requests j := by
    by_cases hjk : j = k
    · subst hjk
      simpa using hr
    · rw [updConn_ne _ _ _ hjk]

theorem follows_send (w : World) (k : ConnId) (msg : Bytes) : Follows w .none (w.send k msg) :=
  follows_updConn w k (by simp) (by simp)

theorem follows_signal (w : World) (slots : List (Nat × ConnId)) (msg : Bytes) :
    Follows w .none (w.signal slots msg) := by
  induction slots generalizing w with
  | nil => exact Follows.refl w
  | cons slot slots ih => exact (follows_send w slot.2 msg).after (ih _)

/-- Publishing touches the events only. -/
theorem publishes_frame (w : World) (l : List Event) :
    (l.foldl (fun w ev => w.publish none ev) w).conns = w.conns ∧
      (l.foldl (fun w ev => w.publish none ev) w).heap = w.heap ∧
        (l.foldl (fun w ev => w.publish none ev) w).events =
          w.events ++ l.map fun ev => (none, ev) := by
  induction l generalizing w with
  | nil => exact ⟨rfl, rfl, (List.append_nil _).symm⟩
  | cons ev l ih =>
      obtain ⟨hconns, hheap, hevents⟩ := ih (w.publish none ev)
      refine ⟨hconns, hheap, hevents.trans ?_⟩
      rw [publish, List.append_assoc]
      rfl

/-- Signalling touches the connections only. -/
theorem signal_heap_events (w : World) (slots : List (Nat × ConnId)) (msg : Bytes) :
    (w.signal slots msg).heap = w.heap ∧ (w.signal slots msg).events = w.events := by
  induction slots generalizing w with
  | nil => exact ⟨rfl, rfl⟩
  | cons slot slots ih => exact ih (w.send slot.2 msg)

theorem signals_heap_events (w : World) (slots : List (Nat × ConnId)) (l : List Bytes) :
    (l.foldl (fun w msg => w.signal slots msg) w).heap = w.heap ∧
      (l.foldl (fun w msg => w.signal slots msg) w).events = w.events := by
  induction l generalizing w with
  | nil => exact ⟨rfl, rfl⟩
  | cons msg l ih =>
      obtain ⟨hheap, hevents⟩ := ih (w.signal slots msg)
      obtain ⟨hheap', hevents'⟩ := signal_heap_events w slots msg
      exact ⟨hheap.trans hheap', hevents.trans hevents'⟩

theorem follows_signals (w : World) (slots : List (Nat × ConnId)) (l : List Bytes) :
    Follows w .none (l.foldl (fun w msg => w.signal slots msg) w) := by
  induction l generalizing w with
  | nil => exact Follows.refl w
  | cons msg l ih => exact (follows_signal w slots msg).after (ih _)

/-- The events of a `set_value` call are published. -/
theorem events_applyEffect (w : World) (a : Addr) (e : SetEffect) :
    (w.applyEffect a e).events = w.events ++ e.events.map fun ev => (none, ev) := by
  obtain ⟨-, -, hevents⟩ := publishes_frame w e.events
  exact (signals_heap_events _ _ e.signals).2.trans hevents

/-- Writing a device state back, its id and its kind kept. -/
theorem follows_store {a : Addr} {d d' : DeviceState} (hd : w.heap a = some d)
    (hi : identOf d' = identOf d) (hk : d.Keyed → d'.Keyed) : Follows w .none (w.store a d') where
  sessions := by
    refine Sessions.ext rfl rfl ?_ rfl rfl rfl
    funext b
    by_cases hb : b = a
    · subst hb
      simp [sessions, store, hd, hi, Sessions.apply]
    · simp [sessions, store, hb, Sessions.apply]
  keyed h b e he := by
    by_cases hb : b = a
    · subst hb
      simp only [store, Function.update_self, Option.some.injEq] at he
      subst he
      exact hk (h b d hd)
    · simp only [store, Function.update_of_ne hb] at he
      exact h b e he
  requests _ := rfl

/-- Publishing an event that is no session event. -/
theorem follows_publish (w : World) {k : Option ConnId} {e : Event} (he : mark (k, e) = none) :
    Follows w .none (w.publish k e) where
  sessions := by
    refine Sessions.ext rfl rfl rfl rfl rfl ?_
    simp [sessions, publish, he, Sessions.apply]
  keyed h := h
  requests _ := rfl

theorem follows_publishes (w : World) (l : List Event) :
    Follows w .none (l.foldl (fun w ev => w.publish none ev) w) := by
  induction l generalizing w with
  | nil => exact Follows.refl w
  | cons ev l ih => exact (follows_publish w rfl).after (ih _)

/-! ## 3. Closing, sessions and login -/

theorem close_idle (hs : (w.conns k).sessionStarted = false) :
    w.close k = .ok (w.updConn k fun c => { c with socketOpen := false }) := by
  simp [close, hs]
  rfl

theorem close_started {a : Addr} {d : DeviceState} (hs : (w.conns k).sessionStarted = true)
    (hd : (w.conns k).device = some a) (hh : w.heap a = some d) :
    w.close k = .ok ((w.updConn k fun c => { c with socketOpen := false }).publish (some k)
      { type := .deviceDisconnected, channel := .privateChannel, deviceId := d.id }) := by
  have hh' : (w.updConn k fun c => { c with socketOpen := false }).heap a = some d := hh
  simp [close, hs, deref, hd, hh']

theorem close_null (hs : (w.conns k).sessionStarted = true) (hd : (w.conns k).device = none) :
    w.close k = .error .nullDeref := by
  simp [close, hs, deref, hd]

/-- All that a `close` that returns can do. -/
theorem close_cases (hc : w.close k = .ok w') :
    w' = w.updConn k (fun c => { c with socketOpen := false }) ∨
      ∃ x, w' = (w.updConn k fun c => { c with socketOpen := false }).publish (some k)
        { type := .deviceDisconnected, channel := .privateChannel, deviceId := x } := by
  cases hs : (w.conns k).sessionStarted with
  | false =>
      rw [close_idle hs] at hc
      cases hc
      exact Or.inl rfl
  | true =>
      cases hd : (w.conns k).device with
      | none =>
          rw [close_null hs hd] at hc
          cases hc
      | some a =>
          cases hh : w.heap a with
          | none =>
              have hh' : (w.updConn k fun c => { c with socketOpen := false }).heap a = none := hh
              simp [close, hs, deref, hd, hh'] at hc
          | some d =>
              rw [close_started hs hd hh] at hc
              cases hc
              exact Or.inr ⟨d.id, rfl⟩

/-- Closing a connection after its pointer was set and messages were sent on it (`g`): where a
    session is started the new pointer `p` must lead to a device state. -/
theorem close_updConn {g : DeviceConnection → DeviceConnection} {p : Option Addr}
    (hg : (g (w.conns k)).link = { (w.conns k).link with device := p })
    (hr : (g (w.conns k)).requests = (w.conns k).requests)
    (hp : (w.conns k).sessionStarted = true → ∃ a d, p = some a ∧ w.heap a = some d) :
    ∃ w', (w.updConn k g).close k = .ok w' ∧
      w'.sessions = { w.sessions with
        conn := w.sessions.setConn k fun l => { l with device := p, socketOpen := false },
        marks := w.sessions.marks ++
          w.sessions.finishMark k { w.sessions.conn k with device := p } } ∧
      w'.heap = w.heap ∧ (∀ j, (w'.conns j).requests = (w.conns j).requests) ∧
      (w'.conns k).sent = (g (w.conns k)).sent := by
  have hdev : (g (w.conns k)).device = p := congrArg Link.device hg
  have hst : (g (w.conns k)).sessionStarted = (w.conns k).sessionStarted :=
    congrArg Link.started hg
  have hconn : ∀ j, j ≠ k → ((w.updConn k g).updConn k fun c => { c with socketOpen := false }).conns j
      = w.conns j := fun j hj => by rw [updConn_ne _ _ _ hj, updConn_ne _ _ _ hj]
  have hlink : (((w.updConn k g).updConn k fun c => { c with socketOpen := false }).conns k).link =
      { (w.conns k).link with device := p, socketOpen := false } := by
    rw [updConn_self, updConn_self]
    show ({ (g (w.conns k)).link with socketOpen := false } : Link) = _
    rw [hg]
  have hreq : ∀ j, (((w.updConn k g).updConn k fun c => { c with socketOpen := false }).conns
      j).requests = (w.conns j).requests := by
    intro j
    by_cases hj : j = k
    · subst hj
      simpa using hr
    · rw [hconn j hj]
  have hsess := sessions_conn (f := fun l => { l with device := p, socketOpen := false }) hlink hconn
  cases hs : (w.conns k).sessionStarted with
  | false =>
      refine ⟨_, close_idle (by rw [updConn_self, hst, hs]), ?_, rfl, hreq, by simp⟩
      refine Sessions.ext hsess rfl rfl rfl rfl ?_
      rw [Sessions.finishMark_of_idle (l := { w.sessions.conn k with device := p }) hs]
      exact (List.append_nil _).symm
  | true =>
      obtain ⟨a, d, ha, hd⟩ := hp hs
      refine ⟨_, close_started (a := a) (d := d) (by rw [updConn_self, hst, hs])
        (by rw [updConn_self, hdev, ha]) hd, ?_, rfl, hreq, by simp [publish]⟩
      refine Sessions.ext hsess rfl rfl rfl rfl ?_
      have hi : w.sessions.ident a = some (identOf d) := by simp [sessions, hd]
      rw [Sessions.finishMark_of_started (l := { w.sessions.conn k with device := p }) hs ha hi]
      simp [sessions, publish, mark, updConn, identOf]

/-- `close` closes the connection; where a session is started its finish is published. -/
theorem close_follows (h : w.WF) (k : ConnId) : ∃ w', w.close k = .ok w' ∧
    Follows w (.closed k) w' ∧ (w'.conns k).sent = (w.conns k).sent := by
  obtain ⟨w', hw', hs, hh, hr, hsent⟩ := close_updConn (w := w) (k := k) (g := id)
    (p := (w.conns k).device) rfl rfl (fun hs => h.started hs)
  have hid : w.updConn k id = w := by simp [updConn]
  rw [hid] at hw'
  exact ⟨w', hw', ⟨hs, fun hk => hh ▸ hk, hr⟩, hsent⟩

/-- A refused session: the pointer is set to the registry's entry, the refusal is sent, and the
    connection is closed. -/
theorem refused_follows (h : w.WF) {id : Int32}
    (hc : (w.conns k).sessionStarted = true → ∃ a, w.find id = some a) (msg : Bytes) :
    ∃ w', ((w.updConn k fun c => { c with device := w.find id }).send k msg).close k = .ok w' ∧
      Follows w (.refused k id) w' := by
  rw [send, updConn_updConn]
  obtain ⟨w', hw', hs, hh, hr, -⟩ := close_updConn (w := w) (k := k) (p := w.find id)
    (g := (·.send msg) ∘ fun c => { c with device := w.find id }) (by simp; rfl) (by simp)
    (fun hst => by
      obtain ⟨a, ha⟩ := hc hst
      obtain ⟨d, hd, -⟩ := h.find ha
      exact ⟨a, d, ha, hd⟩)
  exact ⟨w', hw', hs, fun hk => hh ▸ hk, hr⟩

/-- The connection after its session has started on the device state at `a`. -/
def openedConn (env : Env) (d : Device) (a : Addr) (c : DeviceConnection) : DeviceConnection :=
  let cipher : BlockCipher := { password := d.password, iv := env.iv }
  let c := { c with device := some a, blockCipher := some cipher }.send
    (cString (cipher.sessionString env.clock))
  { c with sessionStarted := true }

/-- The world after a session has started. -/
def opened (env : Env) (w : World) (k : ConnId) (d : Device) : World :=
  ((w.connect d).1.updConn k (openedConn env d w.nextAddr)).publish (some k)
    { type := .deviceConnected, channel := .privateChannel, deviceId := d.id }

theorem createSession_found {id : Int32} {d : Device} (hl : env.loadFromDb id = some d) :
    w.createSession env k id = .ok (opened env w k d, true) := by
  simp only [createSession, opened, openedConn, hl, connect, deref, send, updConn,
    Function.update_self, Function.update_idem, DeviceConnection.send_device]
  rfl

theorem createSession_missing {id : Int32} (hl : env.loadFromDb id = none) :
    w.createSession env k id = .ok ((w.updConn k fun c => { c with device := w.find id }).send k
      (ascii "406 Not Acceptable"), false) := by
  simp only [createSession, hl]
  rfl

/-- Registering the state of a device. -/
theorem sessions_connect (w : World) (d : Device) :
    (w.connect d).1.sessions = { w.sessions with
      ident := Function.update w.sessions.ident w.nextAddr (some (d.id, d.isVirtual)),
      nextAddr := w.nextAddr + 1,
      registry := Function.update w.sessions.registry d.id (some w.nextAddr) } := by
  refine Sessions.ext rfl rfl ?_ rfl ?_ rfl
  · funext a
    by_cases ha : a = w.nextAddr
    · simp [sessions, connect, ha, identOf, DeviceState.new]
    · simp [sessions, connect, ha]
  · funext x
    by_cases hx : x = d.id
    · simp [sessions, connect, hx, find]
    · simp [sessions, connect, find, hx, Std.ExtTreeMap.getElem?_insert, Ne.symm hx]

theorem keyed_connect (w : World) (d : Device) (h : ∀ a e, w.heap a = some e → e.Keyed) (a : Addr)
    (e : DeviceState) (he : (w.connect d).1.heap a = some e) : e.Keyed := by
  by_cases ha : a = w.nextAddr
  · subst ha
    simp only [connect, Function.update_self, Option.some.injEq] at he
    subst he
    exact DeviceState.keyed_new d
  · simp only [connect, Function.update_of_ne ha] at he
    exact h a e he

/-- A session for a device that has a row starts on a new device state. -/
theorem opened_follows (env : Env) (w : World) (k : ConnId) (d : Device) :
    Follows w (.opened k d.id d.isVirtual) (opened env w k d) where
  sessions := by
    refine Sessions.ext ?_ rfl ?_ rfl ?_ ?_
    · refine sessions_conn (f := fun l => { l with device := some w.nextAddr, started := true })
        ?_ fun j hj => updConn_ne _ _ _ hj
      show (((w.connect d).1.updConn k (openedConn env d w.nextAddr)).conns k).link = _
      rw [updConn_self]
      simp [openedConn, DeviceConnection.link, connect]
    · have hconn := congrArg Sessions.ident (sessions_connect w d)
      exact hconn
    · have hconn := congrArg Sessions.registry (sessions_connect w d)
      exact hconn
    · simp [sessions, opened, publish, updConn, connect, Sessions.apply, mark]
  keyed h a e he := keyed_connect w d h a e he
  requests j := by
    by_cases hj : j = k
    · subst hj
      show (((w.connect d).1.updConn j (openedConn env d w.nextAddr)).conns j).requests = _
      simp [openedConn, connect]
    · exact congrArg DeviceConnection.requests (updConn_ne _ _ _ hj)

/-- `register_device_signals` adds a slot to the connection's device. -/
theorem registerDeviceSignals_follows (h : w.WF) {a : Addr} (hd : (w.conns k).device = some a) :
    ∃ w', w.registerDeviceSignals k = .ok w' ∧ Follows w .none w' := by
  obtain ⟨d, hh⟩ := h.deref hd
  let d' : DeviceState := { d with networkSignals := d.networkSignals ++ [(d.nextSlot, k)],
                                   nextSlot := d.nextSlot + 1 }
  refine ⟨(w.store a d').updConn k fun c => { c with deviceSignalsConn := some (a, d.nextSlot) },
    ?_, ?_⟩
  · simp only [registerDeviceSignals, deref, hd, hh]
    rfl
  · have hst : Follows w .none (w.store a d') := follows_store hh rfl id
    exact hst.quiet (follows_updConn _ k rfl rfl)

theorem registerDeviceSignals_null (hd : (w.conns k).device = none) :
    w.registerDeviceSignals k = .error .nullDeref := by
  simp only [registerDeviceSignals, deref, hd]
  rfl

/-! ## 4. Commands -/

/-- How many parameters the handler of a command reads. -/
def Command.reads : Command → Nat
  | .createSession | .login => 1
  | .aps | .exit => 0
  | .set => 2

/-- Every parameter of an `aps` request names a port of the connection's device. -/
def apsNamesPorts (env : Env) (w : World) (k : ConnId) (params : List Bytes) : Bool :=
  match (w.conns k).device.bind w.heap with
  | some d => d.namesPorts env.junk 0 params
  | none => params.isEmpty

/-- The change a command makes that has its parameters. -/
def commandChange (env : Env) (w : World) (k : ConnId) (params : List Bytes) : Command → Change
  | .createSession =>
      let id := atoi (params.headD [])
      match env.loadFromDb id with
      | some d => .opened k d.id d.isVirtual
      | none => .refused k id
  | .login => if cString (params.headD []) = ascii "1234" then .none else .closed k
  | .aps => if apsNamesPorts env w k params then .none else .closed k
  | .exit => .closed k
  | .set => .none

/-- The command follows the connection's device pointer, and it is NULL: a session for an unknown
    device inside a session, with no state registered for it; a good login or a port state without
    a session. -/
def nullAccess (env : Env) (w : World) (k : ConnId) (params : List Bytes) : Command → Prop
  | .createSession =>
      let id := atoi (params.headD [])
      env.loadFromDb id = none ∧ (w.conns k).sessionStarted = true ∧ w.find id = none
  | .login => cString (params.headD []) = ascii "1234" ∧ (w.conns k).device = none
  | .aps => params ≠ [] ∧ (w.conns k).device = none
  | .exit | .set => False

section Callback

variable {name : Bytes} {params : List Bytes} {cmd : Command}

/-- A handler that reads a parameter that is not there throws. -/
theorem callback_missing (hp : params.length < cmd.reads) :
    cmd.callback env w k (name :: params) = .ok (.thrown w) := by
  cases cmd with
  | createSession =>
      obtain rfl : params = [] := List.length_eq_zero_iff.mp (Nat.lt_one_iff.mp hp)
      rfl
  | login =>
      obtain rfl : params = [] := List.length_eq_zero_iff.mp (Nat.lt_one_iff.mp hp)
      rfl
  | aps | exit => exact absurd hp (Nat.not_lt_zero _)
  | set =>
      rcases params with _ | ⟨_, _ | ⟨_, rest⟩⟩
      · rfl
      · rfl
      · exact absurd hp (Nat.not_lt.mpr (Nat.le_add_left 2 rest.length))

/-- A good login. -/
theorem login_welcome (h : w.WF) {a : Addr} (hd : (w.conns k).device = some a) {passwd : Bytes}
    (hpw : cString passwd = ascii "1234") :
    ∃ w', w.login k passwd = .ok (w', true) ∧ Follows w .none w' := by
  have hl := follows_updConn w k (f := fun c => { c with loggedIn := true }) rfl rfl
  have hd' : ((w.updConn k fun c => { c with loggedIn := true }).conns k).device = some a := by
    simpa using hd
  obtain ⟨w', hw', hf⟩ := registerDeviceSignals_follows (h.quiet hl) hd'
  refine ⟨w', ?_, hl.after hf⟩
  simp only [login, if_pos hpw, hw']
  rfl

theorem login_null (hd : (w.conns k).device = none) {passwd : Bytes}
    (hpw : cString passwd = ascii "1234") : w.login k passwd = .error .nullDeref := by
  have hd' : ((w.updConn k fun c => { c with loggedIn := true }).conns k).device = none := by
    simpa using hd
  simp only [login, if_pos hpw, registerDeviceSignals_null hd']
  rfl

theorem login_bad {passwd : Bytes} (hpw : cString passwd ≠ ascii "1234") :
    w.login k passwd = .ok (w, false) := by
  simp only [login, if_neg hpw]
  rfl

variable (env name params) in
/-- A bad login is answered and the connection closed. -/
theorem callback_badLogin (h : w.WF) {passwd : Bytes} (hpw : cString passwd ≠ ascii "1234") :
    ∃ w', Command.login.callback env w k (name :: passwd :: params) = .ok (.done w') ∧
      Follows w (.closed k) w' ∧ (w'.conns k).sent =
        (w.conns k).sent ++ [((w.conns k).sessionStarted, ascii "BAD LOGIN")] := by
  have hs := follows_send w k (ascii "BAD LOGIN")
  obtain ⟨w', hw', hf, hsent⟩ := close_follows (h.quiet hs) k
  refine ⟨w', ?_, hs.after hf, ?_⟩
  · simp only [Command.callback, commands.login, List.getElem?_cons_succ, List.getElem?_cons_zero,
      login_bad hpw]
    show (do return Outcome.done (← (w.send k (ascii "BAD LOGIN")).close k)) = _
    rw [hw']
    rfl
  · rw [hsent]
    simp

variable (env name) in
/-- An `aps` with parameters, the device pointer followed. -/
theorem callback_aps_eq {a : Addr} {d : DeviceState} (hd : (w.conns k).device = some a)
    (hh : w.heap a = some d) (hp : params ≠ []) :
    Command.aps.callback env w k (name :: params) =
      if (commands.apsLoop env.junk 0 params d).2 then
        .ok (.done ((w.store a (commands.apsLoop env.junk 0 params d).1).send k (ascii "200 OK")))
      else do return .done (← ((w.store a (commands.apsLoop env.junk 0 params d).1).send k
        (ascii "400 Bad Request")).close k) := by
  obtain ⟨param, rest, rfl⟩ := List.exists_cons_of_ne_nil hp
  simp only [Command.callback, commands.allPortsState, List.tail_cons, deref, hd, hh]
  rfl

variable (env name) in
/-- The handler of `aps` where it has parameters and a device. -/
theorem callback_aps (h : w.WF) {a : Addr} {d : DeviceState} (hd : (w.conns k).device = some a)
    (hh : w.heap a = some d) (hp : params ≠ []) :
    ∃ w', Command.aps.callback env w k (name :: params) = .ok (.done w') ∧
      Follows w (if d.namesPorts env.junk 0 params then .none else .closed k) w' := by
  let e := (commands.apsLoop env.junk 0 params d).1
  have he : identOf e = identOf d := by
    show identOf (commands.apsLoop env.junk 0 params d).1 = identOf d
    rw [DeviceState.apsLoop_frame]
    rfl
  have hstore : Follows w .none (w.store a e) :=
    follows_store hh he fun hk => DeviceState.Keyed.apsLoop hk _ _ _
  rw [callback_aps_eq env name hd hh hp, DeviceState.apsLoop_snd (h.keyed hh) env.junk 0 params]
  by_cases hn : d.namesPorts env.junk 0 params = true
  · rw [if_pos hn, if_pos hn]
    exact ⟨_, rfl, hstore.quiet (follows_send _ k _)⟩
  · have hs := hstore.quiet (follows_send _ k (ascii "400 Bad Request"))
    obtain ⟨w', hw', hf, -⟩ := close_follows (h.quiet hs) k
    rw [if_neg hn, if_neg hn, hw']
    exact ⟨w', rfl, hs.after hf⟩

/-- A handler that follows the NULL device pointer. -/
theorem callback_null (hp : cmd.reads ≤ params.length) (hn : nullAccess env w k params cmd) :
    cmd.callback env w k (name :: params) = .error .nullDeref := by
  cases cmd with
  | createSession =>
      obtain ⟨arg, rest, rfl⟩ := List.exists_cons_of_length_pos hp
      have hl : env.loadFromDb (atoi arg) = none := hn.1
      have hs : (w.conns k).sessionStarted = true := hn.2.1
      have hfind : w.find (atoi arg) = none := hn.2.2
      simp only [Command.callback, commands.createSession, List.getElem?_cons_succ,
        List.getElem?_cons_zero, createSession_missing (w := w) (k := k) hl]
      have hclose := close_null (w := (w.updConn k fun c =>
        { c with device := w.find (atoi arg) }).send k (ascii "406 Not Acceptable")) (k := k)
        (by simpa using hs) (by simpa using hfind)
      show (do return Outcome.done (← World.close _ k)) = _
      rw [hclose]
      rfl
  | login =>
      obtain ⟨arg, rest, rfl⟩ := List.exists_cons_of_length_pos hp
      have hpw : cString arg = ascii "1234" := hn.1
      simp only [Command.callback, commands.login, List.getElem?_cons_succ,
        List.getElem?_cons_zero, login_null hn.2 hpw]
      rfl
  | aps =>
      obtain ⟨param, rest, rfl⟩ := List.exists_cons_of_ne_nil hn.1
      simp only [Command.callback, commands.allPortsState, List.tail_cons, deref, hn.2]
      rfl
  | exit | set => exact absurd hn id

/-- What a handler that returns has done: the command's change. -/
def Performs (env : Env) (w : World) (k : ConnId) (name : Bytes) (params : List Bytes)
    (cmd : Command) : Prop :=
  ∃ w', cmd.callback env w k (name :: params) = .ok (.done w') ∧
    w.sessions.Admitted (commandChange env w k params cmd) ∧
    Follows w (commandChange env w k params cmd) w'

variable (name) in
theorem createSession_change (h : w.WF) (ho : (w.conns k).isOpen = true) {arg : Bytes}
    {rest : List Bytes} (hn : ¬ nullAccess env w k (arg :: rest) .createSession) :
    Performs env w k name (arg :: rest) .createSession := by
  unfold Performs
  simp only [commandChange, List.headD_cons]
  cases hl : env.loadFromDb (atoi arg) with
  | some d =>
      refine ⟨_, ?_, ho, opened_follows env w k d⟩
      simp only [Command.callback, commands.createSession, List.getElem?_cons_succ,
        List.getElem?_cons_zero, createSession_found (w := w) (k := k) hl]
      rfl
  | none =>
      have hc : (w.conns k).sessionStarted = true → ∃ a, w.find (atoi arg) = some a := by
        intro hs
        by_contra hne
        exact hn ⟨hl, hs, by simpa [Option.eq_none_iff_forall_not_mem] using hne⟩
      obtain ⟨w', hw', hf⟩ := refused_follows h hc (ascii "406 Not Acceptable")
      refine ⟨w', ?_, ⟨ho, hc⟩, hf⟩
      simp only [Command.callback, commands.createSession, List.getElem?_cons_succ,
        List.getElem?_cons_zero, createSession_missing (w := w) (k := k) hl]
      show (do return Outcome.done (← World.close _ k)) = _
      rw [hw']
      rfl

variable (name) in
theorem login_change (h : w.WF) (ho : (w.conns k).isOpen = true) {arg : Bytes} {rest : List Bytes}
    (hn : ¬ nullAccess env w k (arg :: rest) .login) : Performs env w k name (arg :: rest) .login := by
  have hchange : commandChange env w k (arg :: rest) .login =
      if cString arg = ascii "1234" then .none else .closed k := rfl
  rw [Performs, hchange]
  by_cases hpw : cString arg = ascii "1234"
  · obtain ⟨a, hd⟩ := Option.ne_none_iff_exists'.mp fun hd => hn ⟨hpw, hd⟩
    obtain ⟨w', hw', hf⟩ := login_welcome h hd hpw
    rw [if_pos hpw]
    refine ⟨w'.send k (ascii "200 WELCOME"), ?_, trivial, hf.quiet (follows_send _ _ _)⟩
    simp only [Command.callback, commands.login, List.getElem?_cons_succ,
      List.getElem?_cons_zero, hw']
    rfl
  · rw [if_neg hpw]
    obtain ⟨w', hw', hf, -⟩ := callback_badLogin env name rest h (k := k) hpw
    exact ⟨w', hw', ho, hf⟩

variable (name) in
theorem aps_change (h : w.WF) (ho : (w.conns k).isOpen = true) {params : List Bytes}
    (hn : ¬ nullAccess env w k params .aps) : Performs env w k name params .aps := by
  unfold Performs
  by_cases hparams : params = []
  · subst hparams
    have hnames : apsNamesPorts env w k [] = true := by
      unfold apsNamesPorts
      split <;> rfl
    simp only [commandChange, hnames]
    exact ⟨_, rfl, trivial, follows_send w k _⟩
  · obtain ⟨a, hd⟩ := Option.ne_none_iff_exists'.mp fun hd => hn ⟨hparams, hd⟩
    obtain ⟨d, hh⟩ := h.deref hd
    have hnames : apsNamesPorts env w k params = d.namesPorts env.junk 0 params := by
      simp [apsNamesPorts, hd, hh]
    obtain ⟨w', hw', hf⟩ := callback_aps env name h hd hh hparams
    simp only [commandChange, hnames]
    refine ⟨w', hw', ?_, hf⟩
    split
    · trivial
    · exact ho

variable (name) in
/-- A handler that has its parameters and is not given a NULL device returns, and what it does is
    the command's change. -/
theorem callback_change (h : w.WF) (ho : (w.conns k).isOpen = true)
    (hp : cmd.reads ≤ params.length) (hn : ¬ nullAccess env w k params cmd) :
    ∃ w', cmd.callback env w k (name :: params) = .ok (.done w') ∧
      w.sessions.Admitted (commandChange env w k params cmd) ∧
      Follows w (commandChange env w k params cmd) w' := by
  cases cmd with
  | createSession =>
      obtain ⟨arg, rest, rfl⟩ := List.exists_cons_of_length_pos hp
      exact createSession_change name h ho hn
  | login =>
      obtain ⟨arg, rest, rfl⟩ := List.exists_cons_of_length_pos hp
      exact login_change name h ho hn
  | aps => exact aps_change name h ho hn
  | exit =>
      obtain ⟨w', hw', hf, -⟩ := close_follows h k
      refine ⟨w', ?_, ho, hf⟩
      simp only [Command.callback, commands.exit, hw']
      rfl
  | set =>
      obtain ⟨_, params, rfl⟩ := List.exists_cons_of_length_pos (Nat.lt_of_lt_of_le Nat.two_pos hp)
      obtain ⟨_, rest, rfl⟩ := List.exists_cons_of_length_pos (Nat.le_of_succ_le_succ hp)
      exact ⟨_, rfl, trivial, follows_send w k _⟩

end Callback

end World

end Domoio
