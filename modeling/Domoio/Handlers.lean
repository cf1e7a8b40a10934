import Domoio.Agreement
import Domoio.Requests
import Domoio.Routes

/-
  File:      Domoio/Handlers.lean
  Subject:   `Request::resolve` as a program that changes the server and may throw.

  An exception does not undo anything: what a handler has saved by then stays saved. Here the actions
  save where the source does; `run_resource` and `run_ports` say that they do what the actions of the
  API do, and that an exception comes before anything is saved.
-/

namespace Domoio

open Lib

namespace Httpd

/-! ## 1. Programs -/

/-- What a request meets: the two tables and the live devices. -/
structure Server where
  devices : Table
  users : Table
  live : Registry

inductive TableName where
  | devices
  | users

namespace Server

def table (s : Server) : TableName → Table
  | .devices => s.devices
  | .users => s.users

def setTable (s : Server) (table : Table) : TableName → Server
  | .devices => { s with devices := table }
  | .users => { s with users := table }

@[simp] theorem setTable_table (s : Server) (name : TableName) : s.setTable (s.table name) name = s := by
  cases name <;> rfl

/-- The live devices after `set_port` on a port, behind the lookups. -/
def setPort (s : Server) (deviceId : Int32) (device : DeviceState) (port : PortState) (doc : Object) :
    Server :=
  { s with live := Function.update s.live deviceId (some (device.httpSetPort port doc).device) }

end Server

/-- A program: how it ends, and the server it leaves. -/
def Program (α : Type) : Type := Server → Except JsonException α × Server

namespace Program

variable {α β : Type}

instance : Monad Program where
  pure a s := (.ok a, s)
  bind x f s :=
    match x s with
    | (.ok a, s) => f a s
    | (.error e, s) => (.error e, s)

def read : Program Server := fun s => (.ok s, s)

/-- What may throw and changes nothing. -/
def lift (r : Except JsonException α) : Program α := fun s => (r, s)

def setServer (s : Server) : Program Unit := fun _ => (.ok (), s)

/-- `Model::save`. -/
def save {T : Type} (M : ModelClass Registry T) (name : TableName) (statements : Statements)
    (c : Cajun) (t : T) : Program T := fun s =>
  let saved := M.saveWhen statements c s.live (s.table name) t
  (.ok saved.2.1, s.setTable saved.1 name)

@[simp] theorem bind_read (f : Server → Program α) (s : Server) : (read >>= f) s = f s s := rfl

@[simp] theorem bind_lift_ok (a : α) (f : α → Program β) (s : Server) :
    (lift (.ok a) >>= f) s = f a s := rfl

@[simp] theorem bind_lift_error (e : JsonException) (f : α → Program β) (s : Server) :
    (lift (.error e) >>= f) s = (.error e, s) := rfl

theorem bind_ok {x : Program α} {a : α} {s s' : Server} (h : x s = (.ok a, s')) {f : α → Program β} :
    (x >>= f) s = f a s' := by
  show (match x s with
    | (.ok a, s) => f a s
    | (.error e, s) => (.error e, s)) = _
  rw [h]

theorem bind_error {x : Program α} {e : JsonException} {s s' : Server} (h : x s = (.error e, s'))
    {f : α → Program β} : (x >>= f) s = (.error e, s') := by
  show (match x s with
    | (.ok a, s) => f a s
    | (.error e, s) => (.error e, s)) = _
  rw [h]

end Program

/-! ## 2. The actions -/

namespace programs

/-- The action for a model, as `actions.resourceWhen`. -/
def resource {T : Type} (M : ModelClass Registry T) (blank : T) (name : TableName)
    (statements : Statements) (c : Cajun) (request : Request) : Program (Option Bytes) := do
  let id := request.paramInt "id"
  let s ← Program.read
  if request.method = .get ∧ id = 0 then
    let collection ← Program.lift (allWhen M statements c blank (s.table name))
    let array := collection.map fun t => .object (M.toJsonObject s.live t)
    return some (c.writeArray array)
  else if request.method = .get ∧ id ≠ 0 then
    let r ← Program.lift (M.loadWhen statements c (s.table name) id blank)
    return some (M.toJson c s.live r.1)
  else if request.method = .post ∧ id = 0 then
    let t ← Program.lift (M.fromJson c request.postDataRaw blank)
    let t ← Program.save M name statements c t
    return some (M.toJson c s.live t)
  else if request.method = .put ∧ id ≠ 0 then
    let r ← Program.lift (M.loadWhen statements c (s.table name) id blank)
    let t ← Program.lift (M.fromJson c request.postDataRaw r.1)
    let t ← Program.save M name statements c t
    return some (M.toJson c s.live t)
  else return none

/-- `actions::ports`, as `actions.portsWhen`. -/
def ports (statements : Statements) (c : Cajun) (request : Request) : Program (Option Bytes) := do
  let deviceId := request.paramInt "device_id"
  let id := request.paramInt "id"
  let s ← Program.read
  let r ← Program.lift (Device.model.loadWhen statements c s.devices deviceId {})
  if r.2 = false then return none
  else
    let device := r.1
    match request.method with
    | .get =>
        match device.getPort id with
        | none => return none
        | some (_, port) => return some (Port.model.toJson c s.live port)
    | .post =>
        let port ← Program.lift (Port.model.fromJson c request.postDataRaw {})
        let _ ← Program.save Device.model .devices statements c (device.addPort port)
        return some (Port.model.toJson c s.live port)
    | .put =>
        match device.getPort id with
        | none => return none
        | some (key, port) =>
            let port ← Program.lift (Port.model.fromJson c request.postDataRaw port)
            let _ ← Program.save Device.model .devices statements c (device.putPort key port)
            return some (Port.model.toJson c s.live port)
    | .options | .delete | .other => return none

/-- `actions::set_port`. -/
def setPort (c : Cajun) (request : Request) : Program (Option Bytes) := do
  let deviceId := request.paramInt "device_id"
  let portId := request.paramInt "id"
  let s ← Program.read
  match s.live deviceId with
  | none => return none
  | some device =>
      match device.port portId with
      | none => return none
      | some port =>
          if request.postDataRaw = [] then return none
          else
            let doc ← Program.lift (c.read request.postDataRaw)
            Program.setServer (s.setPort deviceId device port doc)
            return some (ascii "OK")

end programs

/-- The callback of an action. An action returns true exactly where it has responded. -/
def Callback.run (statements : Statements) (c : Cajun) (request : Request) :
    Callback → Program (Option Bytes)
  | .devices => programs.resource Device.model {} .devices statements c request
  | .users => programs.resource User.model {} .users statements c request
  | .ports => programs.ports statements c request
  | .setPort => programs.setPort c request

/-- `handle_request`, which is `Request::resolve`: what it returns to `ev_handler`. -/
def handleRequest (statements : Statements) (c : Cajun) (actions : List (HttpdAction Callback))
    (method : Method) (url postDataRaw : Bytes) : Program Bool := do
  match resolve actions method url postDataRaw with
  | none => return false
  | some (callback, request) => return (← callback.run statements c request).isSome

/-! ## 3. What the programs do -/

/-- A reply on a table of the server: an exception leaves the server as it was. -/
def Server.replied (s : Server) (name : TableName) :
    Except JsonException Reply → Except JsonException (Option Bytes) × Server
  | .ok reply => (.ok reply.responseData, s.setTable reply.table name)
  | .error e => (.error e, s)

variable {statements : Statements} {c : Cajun} {request : Request} {s : Server}

@[simp] theorem Server.replied_none (name : TableName) :
    s.replied name (.ok { table := s.table name }) = (.ok none, s) := by
  rw [replied, setTable_table]

theorem Server.replied_some (name : TableName) (data : Bytes) :
    s.replied name (.ok { table := s.table name, responseData := some data }) =
      (.ok (some data), s) := by
  rw [replied, setTable_table]

theorem run_resource {T : Type} (M : ModelClass Registry T) (blank : T) (name : TableName) :
    programs.resource M blank name statements c request s = s.replied name
      (actions.resourceWhen M blank statements c s.live (s.table name) request) := by
  unfold programs.resource actions.resourceWhen actions.resourceWith
  dsimp only [queriesWhen]
  rw [Program.bind_read]
  by_cases hindex : request.method = .get ∧ request.paramInt "id" = 0
  · rw [if_pos hindex, if_pos hindex]
    cases hall : allWhen M statements c blank (s.table name) with
    | error e => rfl
    | ok collection => exact (s.replied_some name _).symm
  rw [if_neg hindex, if_neg hindex]
  by_cases hshow : request.method = .get ∧ request.paramInt "id" ≠ 0
  · rw [if_pos hshow, if_pos hshow]
    cases hload : M.loadWhen statements c (s.table name) (request.paramInt "id") blank with
    | error e => rfl
    | ok r => exact (s.replied_some name _).symm
  rw [if_neg hshow, if_neg hshow]
  by_cases hcreate : request.method = .post ∧ request.paramInt "id" = 0
  · rw [if_pos hcreate, if_pos hcreate]
    cases hbody : M.fromJson c request.postDataRaw blank with
    | error e => rfl
    | ok t => rfl
  rw [if_neg hcreate, if_neg hcreate]
  by_cases hupdate : request.method = .put ∧ request.paramInt "id" ≠ 0
  · rw [if_pos hupdate, if_pos hupdate]
    cases hload : M.loadWhen statements c (s.table name) (request.paramInt "id") blank with
    | error e => rfl
    | ok r =>
        rw [Program.bind_lift_ok]
        cases hbody : M.fromJson c request.postDataRaw r.1 with
        | error e =>
            rw [Program.bind_lift_error]
            simp [bind, Except.bind, hbody, Server.replied]
        | ok t =>
            rw [Program.bind_lift_ok]
            simp [bind, Except.bind, hbody, Server.replied]
            rfl
  · rw [if_neg hupdate, if_neg hupdate]
    exact (s.replied_none name).symm

/-- `actions::ports` once the device is loaded. -/
theorem run_ports : programs.ports statements c request s = s.replied .devices
    (actions.portsWhen statements c s.live s.devices request) := by
  unfold programs.ports actions.portsWhen actions.portsWith
  dsimp only [queriesWhen]
  rw [Program.bind_read]
  cases hload : Device.model.loadWhen statements c s.devices (request.paramInt "device_id") {} with
  | error e => rfl
  | ok r =>
      obtain ⟨device, loaded⟩ := r
      rw [Program.bind_lift_ok]
      cases loaded with
      | false => exact (s.replied_none .devices).symm
      | true =>
          simp only [Bool.true_eq_false, if_false, Except.bind, if_true, actions.portsLoadedWith]
          cases request.method with
          | get =>
              cases device.getPort (request.paramInt "id") with
              | none => rfl
              | some p => rfl
          | post =>
              cases hbody : Port.model.fromJson c request.postDataRaw {} with
              | error e => rfl
              | ok port => rfl
          | put =>
              cases device.getPort (request.paramInt "id") with
              | none => rfl
              | some p =>
                  obtain ⟨key, port⟩ := p
                  cases hbody : Port.model.fromJson c request.postDataRaw port with
                  | error e =>
                      simp only [hbody]
                      rfl
                  | ok port =>
                      simp only [hbody]
                      rfl
          | options | delete | other => rfl

/-- The live devices after a call of `set_value` on one of them. -/
theorem registry_applyEffect {w : World} (h : w.WF) {x : Int32} {a : Addr} {d : DeviceState}
    {e : SetEffect} (hx : w.find x = some a) (hd : w.heap a = some d)
    (hfind : (w.applyEffect a e).find = w.find) :
    (w.applyEffect a e).registry = Function.update w.registry x (some e.device) := by
  have hheap : (w.applyEffect a e).heap = Function.update w.heap a (some e.device) := by
    obtain ⟨-, hpublished, -⟩ := World.publishes_frame w e.events
    have hsame := (World.signals_heap_events _ e.device.networkSignals e.signals).1.trans hpublished
    exact congrArg (Function.update · a (some e.device)) hsame
  funext y
  rw [World.registry, hfind, hheap]
  by_cases hy : y = x
  · rw [hy, hx, Function.update_self, Option.bind_some, Function.update_self]
  · rw [Function.update_of_ne hy, World.registry]
    cases hb : w.find y with
    | none => rfl
    | some b =>
        -- one address is not registered under two ids
        have hne : b ≠ a := by
          intro heq
          subst heq
          obtain ⟨d₁, hd₁, hid₁⟩ := h.find hb
          obtain ⟨d₂, hd₂, hid₂⟩ := h.find hx
          rw [hd₁] at hd₂
          cases hd₂
          exact hy (hid₁.symm.trans hid₂)
        rw [Option.bind_some, Option.bind_some, Function.update_of_ne hne]

/-- `set_port` does to the live devices what the set path of the device server does. -/
theorem registry_httpSetPort {w w' : World} (h : w.WF) {x id : Int32} {d : DeviceState}
    {p : PortState} {doc : Object} (hx : w.registry x = some d) (hp : d.port id = some p)
    (hs : w.step (.httpSetPort x id doc) = .ok w') :
    w'.registry = Function.update w.registry x (some (d.httpSetPort p doc).device) := by
  obtain ⟨a, hfind, hd⟩ := Option.bind_eq_some_iff.mp hx
  have henabled : w.enabled (.httpSetPort x id doc) := trivial
  have hsessions : w'.sessions = w.sessions := (World.step_change h henabled hs).sessions
  have hregistry : w'.find = w.find := congrArg Sessions.registry hsessions
  have hset : w.setRegistered x id (fun d p => d.httpSetPort p doc) =
      .ok (w.applyEffect a (d.httpSetPort p doc)) := World.setRegistered_port hfind hd hp
  have hw : w' = w.applyEffect a (d.httpSetPort p doc) := Except.ok.inj (hs.symm.trans hset)
  rw [hw] at hregistry ⊢
  exact registry_applyEffect h hfind hd hregistry

end Httpd

end Domoio
