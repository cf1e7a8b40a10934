import Domoio.Lib.Machine
import Domoio.Connection
import Domoio.Models

/-
  File:      Domoio/World.lean
  Subject:   The device server as a machine: connections, live device states, events
             (src/server.cc, src/device_connection.cc, src/connection.cc, src/commands/,
             src/models/device.cc, the set paths of http_ports.cc and port_template.cc).

  The state holds all connections, the heap of device states with the registry of the active ones,
  and the events published so far, each with the connection it was sent for (history). A step runs
  one handler of the io_service, or one call of `set_value` from another thread, to its end.

  A handler ends in one of three ways: it returns, it throws a `std::exception` (`Outcome.thrown`,
  with the state it left), or the process goes wrong (`Fault`): a NULL or freed pointer is followed,
  a read runs off a buffer, or an exception reaches `io_service.run`.

  Of the environment a handler sees what `Env` lists: the devices the database answers with (any
  answer at any time, a failed query included), the random IV, the clock, and what uninitialised
  locals happen to hold. Stored specifications that do not parse are left out.
-/

namespace Domoio

open Lib

/-! ## 1. State -/

/-- Ways for the process to go wrong. -/
inductive Fault where
  | nullDeref
  | danglingDeref
  | overread
  | uncaught
  deriving DecidableEq, Repr

/-- What a handler call gets from outside the process. -/
structure Env where
  loadFromDb : Int32 → Option Device
  loadFromDb_id : ∀ {id d}, loadFromDb id = some d → d.id = id
  iv : Bytes
  clock : Int
  junk : Nat → Int32 × Int32

structure World where
  conns : ConnId → DeviceConnection := fun _ => {}
  nextConn : ConnId := 0
  heap : Addr → Option DeviceState := fun _ => none
  nextAddr : Addr := 0
  activeDevices : Std.ExtTreeMap Int32 Addr := ∅
  events : List (Option ConnId × Event) := []

/-- How a command handler ends when nothing goes wrong. -/
inductive Outcome where
  | done (w : World)
  | thrown (w : World)

namespace World

/-- The world after connection `k` is changed. -/
def updConn (w : World) (k : ConnId) (f : DeviceConnection → DeviceConnection) : World :=
  { w with conns := Function.update w.conns k (f (w.conns k)) }

/-- `DeviceConnection::send` on connection `k`. -/
def send (w : World) (k : ConnId) (msg : Bytes) : World := w.updConn k (·.send msg)

/-- `events::send` of an event for connection `k` (`none`: for no connection). -/
def publish (w : World) (k : Option ConnId) (e : Event) : World :=
  { w with events := w.events ++ [(k, e)] }

/-- Following a pointer to a device state. -/
def deref (w : World) : Option Addr → Except Fault (Addr × DeviceState)
  | none => .error .nullDeref
  | some a =>
      match w.heap a with
      | some d => .ok (a, d)
      | none => .error .danglingDeref

/-- A device state is written back. -/
def store (w : World) (a : Addr) (d : DeviceState) : World :=
  { w with heap := Function.update w.heap a (some d) }

/-! ## 2. The registry -/

/-- `DeviceState::find`. -/
def find (w : World) (deviceId : Int32) : Option Addr := w.activeDevices[deviceId]?

/-- `DeviceState::connect`: the new state replaces what the registry had under its id. -/
def connect (w : World) (device : Device) : World × Addr :=
  ({ w with heap := Function.update w.heap w.nextAddr (some (DeviceState.new device)),
            nextAddr := w.nextAddr + 1,
            activeDevices := w.activeDevices.insert device.id w.nextAddr },
    w.nextAddr)

/-- `DeviceState::disconnect`. -/
def disconnect (w : World) (deviceId : Int32) : World :=
  match w.find deviceId with
  | none => w
  | some a =>
      { w with heap := Function.update w.heap a none,
               activeDevices := w.activeDevices.erase deviceId }

/-! ## 3. Signals -/

/-- `network_signals(msg)`: the slots run in order, each sends on its connection. -/
def signal (w : World) (slots : List (Nat × ConnId)) (msg : Bytes) : World :=
  slots.foldl (fun w slot => w.send slot.2 msg) w

/-- The effect of a `set_value` call on the state at `a`: its events, its signals, the value. -/
def applyEffect (w : World) (a : Addr) (e : SetEffect) : World :=
  let w := e.events.foldl (fun w ev => w.publish none ev) w
  let w := e.signals.foldl (fun w msg => w.signal e.device.networkSignals msg) w
  w.store a e.device

/-- `DeviceConnection::register_device_signals`. -/
def registerDeviceSignals (w : World) (k : ConnId) : Except Fault World := do
  let (a, d) ← w.deref (w.conns k).device
  let w := w.store a { d with networkSignals := d.networkSignals ++ [(d.nextSlot, k)],
                              nextSlot := d.nextSlot + 1 }
  return w.updConn k fun c => { c with deviceSignalsConn := some (a, d.nextSlot) }

/-- `DeviceConnection::unregister_device_signals`. -/
def unregisterDeviceSignals (w : World) (k : ConnId) : World :=
  match (w.conns k).deviceSignalsConn with
  | none => w
  | some (a, slot) =>
      match w.heap a with
      | none => w
      | some d =>
          w.store a { d with networkSignals := d.networkSignals.filter fun s => s.1 != slot }

/-! ## 4. Sessions -/

/-- `DeviceConnection::close`. The event's JSON needs the device's id. -/
def close (w : World) (k : ConnId) : Except Fault World := do
  let w := w.updConn k fun c => { c with socketOpen := false }
  if (w.conns k).sessionStarted then
    let (_, d) ← w.deref (w.conns k).device
    return w.publish (some k)
      { type := .deviceDisconnected, channel := .privateChannel, deviceId := d.id }
  else return w

/-- `DeviceConnection::create_session`. -/
def createSession (env : Env) (w : World) (k : ConnId) (deviceId : Int32) :
    Except Fault (World × Bool) := do
  let active := w.find deviceId
  let w := w.updConn k fun c => { c with device := active }
  match env.loadFromDb deviceId with
  | none => return (w.send k (ascii "406 Not Acceptable"), false)
  | some deviceModel =>
      let (w, a) := w.connect deviceModel
      let cipher : BlockCipher := { password := deviceModel.password, iv := env.iv }
      let w := w.updConn k fun c => { c with device := some a, blockCipher := some cipher }
      let w := w.send k (cString (cipher.sessionString env.clock))
      let w := w.updConn k fun c => { c with sessionStarted := true }
      let (_, d) ← w.deref (w.conns k).device
      return (w.publish (some k)
        { type := .deviceConnected, channel := .privateChannel, deviceId := d.id }, true)

/-- `DeviceConnection::login`. -/
def login (w : World) (k : ConnId) (passwd : Bytes) : Except Fault (World × Bool) := do
  if cString passwd = ascii "1234" then
    let w := w.updConn k fun c => { c with loggedIn := true }
    let w ← w.registerDeviceSignals k
    return (w, true)
  else return (w, false)

/-- `DeviceConnection::~DeviceConnection`. -/
def destroy (w : World) (k : ConnId) : Except Fault World := do
  match (w.conns k).device with
  | none => return w
  | some _ =>
      let w := w.unregisterDeviceSignals k
      let (_, d) ← w.deref (w.conns k).device
      return w.disconnect d.id

/-! ## 5. Commands -/

namespace commands

/-- `commands::create_session`. -/
def createSession (env : Env) (w : World) (k : ConnId) (params : List Bytes) :
    Except Fault Outcome :=
  match params[1]? with
  | none => .ok (.thrown w)
  | some arg => do
      let (w, created) ← w.createSession env k (atoi arg)
      if created then return .done w else return .done (← w.close k)

/-- `commands::login`. -/
def login (w : World) (k : ConnId) (params : List Bytes) : Except Fault Outcome :=
  match params[1]? with
  | none => .ok (.thrown w)
  | some passwd => do
      let (w, welcome) ← w.login k passwd
      if welcome then return .done (w.send k (ascii "200 WELCOME"))
      else return .done (← (w.send k (ascii "BAD LOGIN")).close k)

/-- What `sscanf` leaves in `id` and `value` for a parameter: a conversion that fails leaves what
    the uninitialised local held. -/
def apsTarget (junk : Int32 × Int32) (param : Bytes) : Int32 × Int32 :=
  let (id, value) := sscanfPair param
  (id.getD junk.1, value.getD junk.2)

/-- The loop of `commands::all_ports_state` from parameter `i` on: the device afterwards, and
    whether every parameter named one of its ports. -/
def apsLoop (junk : Nat → Int32 × Int32) : Nat → List Bytes → DeviceState → DeviceState × Bool
  | _, [], d => (d, true)
  | i, param :: params, d =>
      let (id, value) := apsTarget (junk i) param
      match d.port id with
      | none => (d, false)
      | some port =>
          let d := if port.value ≠ value then (d.setValue port value true).device else d
          apsLoop junk (i + 1) params d

/-- `commands::all_ports_state`. The device pointer is followed once there is a parameter. -/
def allPortsState (env : Env) (w : World) (k : ConnId) (params : List Bytes) :
    Except Fault Outcome := do
  match params.tail with
  | [] => return .done (w.send k (ascii "200 OK"))
  | param :: rest =>
      let (a, d) ← w.deref (w.conns k).device
      let (d, ok) := apsLoop env.junk 0 (param :: rest) d
      let w := w.store a d
      if ok then return .done (w.send k (ascii "200 OK"))
      else return .done (← (w.send k (ascii "400 Bad Request")).close k)

/-- `commands::exit`. -/
def exit (w : World) (k : ConnId) : Except Fault Outcome := do
  return .done (← w.close k)

/-- `commands::set`. -/
def set (w : World) (k : ConnId) (params : List Bytes) : Except Fault Outcome :=
  match params[1]?, params[2]? with
  | some _, some _ => .ok (.done (w.send k (ascii "OK")))
  | _, _ => .ok (.thrown w)

end commands

/-- The registered commands. -/
inductive Command where
  | createSession
  | login
  | aps
  | exit
  | set
  deriving DecidableEq, Repr

/-- `register_device_commands`: the map of the commands by name. -/
def deviceCommands : List (Bytes × Command) :=
  [(ascii "create_session", .createSession), (ascii "login", .login), (ascii "aps", .aps),
    (ascii "exit", .exit), (ascii "set", .set)]

/-- The callback of a command. -/
def Command.callback (cmd : Command) (env : Env) (w : World) (k : ConnId) (params : List Bytes) :
    Except Fault Outcome :=
  match cmd with
  | .createSession => commands.createSession env w k params
  | .login => commands.login w k params
  | .aps => commands.allPortsState env w k params
  | .exit => commands.exit w k
  | .set => commands.set w k params

/-- `DeviceConnection::execute_callback` on a parameter list with its command word first. -/
def executeCallback (env : Env) (w : World) (k : ConnId) (name : Bytes) (params : List Bytes) :
    Except Fault Outcome :=
  match deviceCommands.lookup name with
  | none => .ok (.done (w.send k (ascii "400 Bad Request")))
  | some cmd => cmd.callback env w k (name :: params)

/-- The words of a request. -/
def requestParams (str : Bytes) : List Bytes := tokens (trimRight str)

/-- `Connection::dispatch_request`. -/
def dispatchRequest (env : Env) (w : World) (k : ConnId) (str : Bytes) : Except Fault Outcome :=
  let w := w.updConn k fun c => { c with requests := c.requests ++ [str] }
  match requestParams str with
  | [] => .ok (.done (w.send k (ascii "400 Bad Request")))
  | name :: params => executeCallback env w k name params

/-! ## 6. Reading -/

/-- The request a chunk in the receive buffer is taken for: without a session the buffer's C string,
    with one the decoded groups. `none` when the read runs off the buffer. -/
def requestOf (sessionStarted : Bool) (data : Bytes) (bytesTransferred : Nat) : Option Bytes :=
  if sessionStarted then hexDecode data ((bytesTransferred : Int) - 1) else bufferString data

/-- `DeviceConnection::process_input`. -/
def processInput (env : Env) (w : World) (k : ConnId) (data : Bytes) (bytesTransferred : Nat) :
    Except Fault Outcome :=
  let started := (w.conns k).sessionStarted
  match requestOf started data bytesTransferred with
  | none => .error .overread
  | some str =>
      if started then do
        match ← w.dispatchRequest env k str with
        | .done w => return .done w
        | .thrown w =>
            let w := w.updConn k fun c => { c with sessionStarted := false }
            return .done (← (w.send k (ascii "400 Bad Request")).close k)
      else w.dispatchRequest env k str

/-- The receive buffer after `read` cleared it and a chunk arrived. -/
def receiveBuffer (chunk : Bytes) : Bytes :=
  chunk ++ List.replicate (clientBufferMaxLength - chunk.length) 0

/-- `DeviceConnection::handle_read` of a chunk. -/
def handleRead (env : Env) (w : World) (k : ConnId) (chunk : Bytes) : Except Fault World := do
  match ← w.processInput env k (receiveBuffer chunk) chunk.length with
  | .done w => return w
  | .thrown _ => .error .uncaught

/-- The errors that mean that the peer has gone. -/
inductive ReadError where
  | eof
  | connectionReset
  deriving DecidableEq, Repr

/-- `DeviceConnection::handle_read` with an error. (The field is uninitialised in the constructor,
    so the guard on it may be false; it only guards the trace line.) -/
def handleReadError (w : World) (k : ConnId) (_error : ReadError) : World :=
  w.updConn k fun c => { c with disconnected := true }

/-! ## 7. Writers of port values outside the device protocol -/

/-- A JavaScript value as `set_port_value` tells them apart. -/
inductive JsValue where
  | boolean (value : Bool)
  | int32 (value : Int32)
  | other
  deriving DecidableEq

end World

/-- `actions::set_port` on a port of the device, behind the lookups: the body decides by its
    converted member `value`. -/
def DeviceState.httpSetPort (d : DeviceState) (p : PortState) (doc : Object) : SetEffect :=
  if p.digital then d.setValueBool p (Object.get doc "value").toBoolean
  else d.setValue p (intOfDouble (Object.get doc "value").toNumber)

/-- `set_port_value` on a port of the device, behind the lookups; for a value that is neither a
    boolean nor an `int32` the local it passes on is uninitialised. -/
def DeviceState.jsSetPortValue (d : DeviceState) (p : PortState) (value : World.JsValue)
    (junk : Int32) : SetEffect :=
  match value with
  | .boolean b => d.setValue p (if b then 1 else 0)
  | .int32 n => d.setValue p n
  | .other => d.setValue p junk

namespace World

/-- A `set_value` call through the registry: nothing happens where a lookup finds nothing. -/
def setRegistered (w : World) (deviceId portId : Int32)
    (call : DeviceState → PortState → SetEffect) : Except Fault World :=
  match w.find deviceId with
  | none => .ok w
  | some a => do
      let (a, d) ← w.deref (some a)
      match d.port portId with
      | none => return w
      | some p => return w.applyEffect a (call d p)

/-! ## 8. The machine -/

/-- What can happen next. -/
inductive Action where
  | accept
  | acceptError
  | read (k : ConnId) (chunk : Bytes) (env : Env)
  | readError (k : ConnId) (error : ReadError)
  | written (k : ConnId)
  | httpSetPort (deviceId portId : Int32) (doc : Object)
  | jsSetPortValue (deviceId portId : Int32) (value : JsValue) (junk : Int32)

/-- `Server::handle_accept` without an error. The next connection is already waiting. -/
def handleAccept (w : World) : World :=
  { w.updConn w.nextConn (·.start) with nextConn := w.nextConn + 1 }

/-- `Server::handle_accept` with an error: the waiting connection is deleted. -/
def handleAcceptError (w : World) : Except Fault World := do
  let w' ← w.destroy w.nextConn
  return { w' with nextConn := w.nextConn + 1 }

def step (w : World) : Action → Except Fault World
  | .accept => .ok w.handleAccept
  | .acceptError => w.handleAcceptError
  | .read k chunk env => w.handleRead env k chunk
  | .readError k e => .ok (w.handleReadError k e)
  | .written k => .ok (w.updConn k (·.handleWrite))
  | .httpSetPort deviceId portId doc =>
      w.setRegistered deviceId portId fun d p => d.httpSetPort p doc
  | .jsSetPortValue deviceId portId value junk =>
      w.setRegistered deviceId portId fun d p => d.jsSetPortValue p value junk

/-- A chunk fits the buffer and comes on an open connection; a write completes once started. -/
def enabled (w : World) : Action → Prop
  | .read k chunk _ => (w.conns k).isOpen ∧ 1 ≤ chunk.length ∧ chunk.length ≤ clientBufferMaxLength
  | .readError k _ => (w.conns k).isOpen
  | .written k => 0 < (w.conns k).outstanding
  | _ => True

/-- The device server. -/
def machine : Machine World Action Fault := ⟨enabled, step⟩

/-- `DeviceState::load_virtual_devices`: the registry before the server starts. -/
def loadVirtualDevices (devices : List Device) : World :=
  devices.foldl (fun w d => if d.isVirtual then (w.connect d).1 else w) {}

end World

end Domoio
