import Domoio.DataMapper

/-
  File:      Domoio/Models.lean
  Subject:   The stored models and the live device states (include/models.h, devices.h, events.h;
             src/models/device.cc, port.cc, events.cc).

  * `User`, `Port`, `Specifications`, `Device` -- the records with their field tables and callbacks;
  * `PortState`, `DeviceState` -- a live device: its port values and the slots of its signal;
  * `Event` -- what the server publishes, with the JSON its constructor builds.

  A `Port*` of the specifications is a value in their map. The map is keyed by the id a port had
  when it was put in; the port's own id can be changed in place later.
-/

namespace Domoio

open Lib

/-! ## 1. Events -/

/-- `events::type`. -/
inductive EventType where
  | portSet
  | deviceConnected
  | deviceDisconnected
  deriving DecidableEq, Repr

/-- `events::channel`. -/
inductive Channel where
  | publicChannel
  | privateChannel
  | restrictedChannel
  deriving DecidableEq, Repr

/-- An event. Of the device and the port it points to, their constant members are kept. -/
structure Event where
  type : EventType
  channel : Channel
  deviceId : Int32
  portId : Int32 := 0
  digital : Bool := false
  oldValue : Int32 := 0
  newValue : Int32 := 0
  deriving DecidableEq

/-- `Event::channel_name`. -/
def Event.channelName (e : Event) : Bytes :=
  match e.channel with
  | .privateChannel => ascii "private"
  | .publicChannel => ascii "public"
  | .restrictedChannel => ascii "restricted"

/-- A port value as JSON: digital values are true or false. -/
def portValueJson (digital : Bool) (value : Int32) : Json :=
  if digital then .boolean (decide (value > 0)) else .number (doubleOfInt value)

/-- `Event::to_json`. -/
def Event.toJson (e : Event) : Object :=
  let ev : Object :=
    match e.type with
    | .portSet =>
        [("type", .string (ascii "port_set")), ("device_id", .number (doubleOfInt e.deviceId)),
          ("port_id", .number (doubleOfInt e.portId)),
          ("value", portValueJson e.digital e.newValue),
          ("old_value", portValueJson e.digital e.oldValue)]
    | .deviceConnected =>
        [("type", .string (ascii "device_connected")),
          ("device_id", .number (doubleOfInt e.deviceId))]
    | .deviceDisconnected =>
        [("type", .string (ascii "device_disconnected")),
          ("device_id", .number (doubleOfInt e.deviceId))]
  ev ++ [("date", .string (ascii "foo")), ("channel", .string e.channelName)]

/-! ## 2. Live devices -/

/-- `PortState`. -/
structure PortState where
  id : Int32
  digital : Bool
  output : Bool
  value : Int32 := -1
  deriving DecidableEq

/-- `PortState::to_json_object`: it adds the value to a port's document. -/
def PortState.toJsonObject (p : PortState) (d : Object) : Object :=
  Object.set d "value" (portValueJson p.digital p.value)

/-- `DeviceState`. A slot of `network_signals` has its number and the connection whose
    `on_device_signal` it calls. -/
structure DeviceState where
  id : Int32
  isVirtual : Bool
  ports : Std.ExtTreeMap Int32 PortState
  networkSignals : List (Nat × Nat) := []
  nextSlot : Nat := 0

def DeviceState.isNetworkDevice (d : DeviceState) : Bool := !d.isVirtual

/-- `DeviceState::port`. -/
def DeviceState.port (d : DeviceState) (id : Int32) : Option PortState := d.ports[id]?

/-- What a call of `set_value` does: the device afterwards, the events it publishes and the
    messages it signals. -/
structure SetEffect where
  device : DeviceState
  events : List Event := []
  signals : List Bytes := []

/-- The message `set_value` sends to a device (it always fits the buffer). -/
def setMessage (id newValue : Int32) : Bytes :=
  ascii "set " ++ decimal id ++ ascii " " ++ decimal newValue

/-- `PortState::set_value(int, bool)` on a port of `d`, which is the state's back pointer. -/
def DeviceState.setValue (d : DeviceState) (p : PortState) (newValue : Int32)
    (silent : Bool := false) : SetEffect :=
  if p.value = newValue then { device := d }
  else
    let stored := { d with ports := d.ports.insert p.id { p with value := newValue } }
    if silent then { device := stored }
    else
      { device := stored
        events := [{ type := .portSet, channel := .privateChannel, deviceId := d.id, portId := p.id,
                     digital := p.digital, oldValue := p.value, newValue := newValue }]
        signals := if d.isNetworkDevice then [setMessage p.id newValue] else [] }

/-- `PortState::set_value(bool)`. -/
def DeviceState.setValueBool (d : DeviceState) (p : PortState) (newValue : Bool) : SetEffect :=
  d.setValue p (if newValue then 1 else 0)

/-- The registry of live devices, as `DeviceState::find` reads it. -/
abbrev Registry := Int32 → Option DeviceState

/-! ## 3. Stored models -/

structure User where
  id : Int32 := 0
  name : Bytes := []
  email : Bytes := []
  encryptedPassword : Bytes := []
  deriving DecidableEq

def User.model : ModelClass Registry User where
  tableName := "users"
  fields :=
    [{ name := "name", ptr := .string User.name fun u s => { u with name := s } },
      { name := "email", ptr := .string User.email fun u s => { u with email := s } },
      { name := "encrypted_password",
        ptr := .string User.encryptedPassword fun u s => { u with encryptedPassword := s },
        opts := optDB }]
  getId := User.id
  setId u id := { u with id := id }

/-- A port of a device. `new Port()` leaves the two flags unset; they are read from the JSON before
    anything looks at them. -/
structure Port where
  id : Int32 := 0
  name : Bytes := []
  digital : Bool := false
  output : Bool := false
  deriving DecidableEq

def Port.model : ModelClass Registry Port where
  tableName := ""
  fields :=
    [{ name := "id", ptr := .integer Port.id fun p n => { p with id := n }, opts := optFromJSON },
      { name := "name", ptr := .string Port.name fun p s => { p with name := s } },
      { name := "digital", ptr := .boolean Port.digital fun p b => { p with digital := b } },
      { name := "output", ptr := .boolean Port.output fun p b => { p with output := b } }]
  getId := Port.id
  setId p id := { p with id := id }
  afterFromJsonObject doc p := .ok { p with id := intOfDouble (Object.get doc "id").toNumber }
  -- the generic loop leaves an id of 0 out
  afterToJsonObject _ p doc := if p.id = 0 then Object.set doc "id" (.number 0) else doc

/-- Ports by the id each had when it was put in. -/
abbrev Ports := Std.ExtTreeMap Int32 Port

/-- A device's specifications. The id every model has stays 0 in them. -/
structure Specifications where
  serial : Bytes := []
  manufacturerRaw : Bytes := []
  modelRaw : Bytes := []
  description : Bytes := []
  ports : Ports := ∅

/-- The loop of `Specifications::after_from_json_object`. -/
def Specifications.portsFromJson : List Json → Ports → Except JsonException Ports
  | [], ports => .ok ports
  | e :: es, ports => do
      let doc ← e.castObject
      let port ← Port.model.fromJsonObject doc {}
      Specifications.portsFromJson es (ports.insert port.id port)

/-- The array `Specifications::after_to_json_object` builds. -/
def Specifications.portsToJson (env : Registry) (ports : Ports) : List Json :=
  ports.toList.map fun p => .object (Port.model.toJsonObject env p.2)

def Specifications.model : ModelClass Registry Specifications where
  tableName := ""
  fields :=
    [{ name := "serial", ptr := .string Specifications.serial fun t s => { t with serial := s } },
      { name := "manufacturer",
        ptr := .string Specifications.manufacturerRaw fun t s => { t with manufacturerRaw := s } },
      { name := "model",
        ptr := .string Specifications.modelRaw fun t s => { t with modelRaw := s } },
      { name := "description",
        ptr := .string Specifications.description fun t s => { t with description := s } }]
  getId _ := 0
  setId t _ := t
  afterFromJsonObject doc t := do
    let ports ← Specifications.portsFromJson (Object.get doc "ports").toArray t.ports
    return { t with ports := ports }
  afterToJsonObject env t doc :=
    Object.set doc "ports" (.array (Specifications.portsToJson env t.ports))

structure Device where
  id : Int32 := 0
  label : Bytes := []
  password : Bytes := []
  specificationsRaw : Bytes := []
  configRaw : Bytes := []
  type : Bytes := []
  specifications : Specifications := {}

def Device.isVirtual (d : Device) : Bool := d.type = ascii "VirtualDevice"

/-- A port of `Device::after_to_json_object`: the specification's document and, where the live
    state has the port, its value. -/
def Device.portJson (env : Registry) (state : Option DeviceState) (port : Port) : Json :=
  let obj := Port.model.toJsonObject env port
  match state.bind fun s => s.port port.id with
  | some portState => .object (portState.toJsonObject obj)
  | none => .object obj

def Device.model : ModelClass Registry Device where
  tableName := "devices"
  fields :=
    [{ name := "label", ptr := .string Device.label fun d s => { d with label := s } },
      { name := "password", ptr := .string Device.password fun d s => { d with password := s },
        opts := optDB ||| optFromJSON },
      { name := "specifications",
        ptr := .text Device.specificationsRaw fun d s => { d with specificationsRaw := s },
        opts := optDB },
      { name := "config", ptr := .text Device.configRaw fun d s => { d with configRaw := s },
        opts := optDB ||| optFromJSON },
      { name := "type", ptr := .string Device.type fun d s => { d with type := s } }]
  getId := Device.id
  setId d id := { d with id := id }
  afterFromJsonObject doc d := do
    let specs ← Specifications.model.fromJsonObject (Object.get doc "specifications").toObject
      d.specifications
    return { d with specifications := specs }
  afterToJsonObject env d doc :=
    let doc := Object.set doc "specifications"
      (.object (Specifications.model.toJsonObject env d.specifications))
    let state := env d.id
    let doc := Object.set doc "connected" (.boolean state.isSome)
    Object.set doc "ports"
      (.array (d.specifications.ports.toList.map fun p => Device.portJson env state p.2))
  beforeSave c env d :=
    { d with specificationsRaw := Specifications.model.toJson c env d.specifications }
  afterLoad c d := do
    let specs ← Specifications.model.fromJson c d.specificationsRaw d.specifications
    return { d with specifications := specs }

/-- `Device::get_port`: the first port, in the order of the keys, that has this id itself, with the
    key it is stored under. -/
def Device.getPort (d : Device) (portId : Int32) : Option (Int32 × Port) :=
  d.specifications.ports.toList.find? fun p => p.2.id = portId

/-- `Device::add_port`. -/
def Device.addPort (d : Device) (port : Port) : Device :=
  { d with specifications :=
      { d.specifications with ports := d.specifications.ports.insert port.id port } }

/-- The port stored under a key after its object was changed in place. -/
def Device.putPort (d : Device) (key : Int32) (port : Port) : Device :=
  { d with specifications :=
      { d.specifications with ports := d.specifications.ports.insert key port } }

/-- `DeviceState::DeviceState`. -/
def DeviceState.new (device : Device) : DeviceState where
  id := device.id
  isVirtual := device.isVirtual
  ports := device.specifications.ports.toList.foldl
    (fun ports p =>
      ports.insert p.2.id { id := p.2.id, digital := p.2.digital, output := p.2.output }) ∅

end Domoio
