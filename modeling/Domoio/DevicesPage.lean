import Domoio.DeviceJson
import Domoio.PortEvents
import Domoio.Setters

/-
  File:      Domoio/DevicesPage.lean
  Subject:   The devices in the browser, kept by the events (web/coffee/devices_manager.js.coffee).

  The page asks for the devices once and changes what it got with each event that comes over its web
  socket. The device is one that stays connected; any number of callers call `set_value` on its ports,
  the steps of a call (compare, publish, signal, store) between those of the others. The page is
  `Current` where it shows, once it has handled the events on their way, each port that no call has yet
  to store to with its value. `page_exact`: it stays so exactly in the runs whose steps are all `InTime`.
-/

namespace Domoio

open Lib WatchedDevice

/-! ## 1. The page -/

/-- `d.id == id`, on an element of a document and a number. -/
def hasId (id : Rat) (d : Json) : Bool :=
  match List.lookup "id" d.toObject with
  | some (.number v) => v = id
  | _ => false

/-- The first element with an id is changed. -/
def updateFirst (id : Rat) (f : Json → Json) : List Json → List Json
  | [] => []
  | d :: ds => if hasId id d then f d :: ds else d :: updateFirst id f ds

/-- The body of the loop over `d.ports`. -/
def setPortValue (data : Object) (p : Json) : Json :=
  if hasId (Object.get data "port_id").toNumber p then
    .object (Object.set p.toObject "value" (Object.get data "value"))
  else p

/-- The loop over `d.ports`, which every document of the server has. -/
def setPortValues (data : Object) (d : Json) : Json :=
  .object (Object.set d.toObject "ports"
    (.array ((Object.get d.toObject "ports").toArray.map (setPortValue data))))

def setConnected (connected : Bool) (d : Json) : Json :=
  .object (Object.set d.toObject "connected" (.boolean connected))

/-- `ws.onmessage`. Where `@device` finds none it returns false: the loop over its ports throws, and a
    field of it is set in vain. -/
def onMessage (devices : List Json) (data : Object) : List Json :=
  let id := (Object.get data "device_id").toNumber
  let type := (Object.get data "type").toStr
  if type = ascii "port_set" then updateFirst id (setPortValues data) devices
  else if type = ascii "device_connected" then updateFirst id (setConnected true) devices
  else if type = ascii "device_disconnected" then updateFirst id (setConnected false) devices
  else devices

/-- The port of a device on the page. -/
def portOn (d : Json) (id : Int32) : Option Json :=
  (Object.get d.toObject "ports").toArray.find? (hasId (doubleOfInt id))

/-- The value the page shows for a port, where it lists it. -/
def valueOn (devices : List Json) (x id : Int32) : Option Json :=
  (devices.find? (hasId (doubleOfInt x))).bind fun d =>
    (portOn d id).map fun p => Object.get p.toObject "value"

theorem find_updateFirst {id : Rat} {f : Json → Json}
    (hf : ∀ d, hasId id d = true → hasId id (f d) = true) (ds : List Json) :
    (updateFirst id f ds).find? (hasId id) = (ds.find? (hasId id)).map f := by
  induction ds with
  | nil => rfl
  | cons d ds ih =>
      rw [updateFirst]
      cases hd : hasId id d with
      | true =>
          rw [if_pos rfl, List.find?_cons_of_pos (hf d hd), List.find?_cons_of_pos hd,
            Option.map_some]
      | false =>
          rw [if_neg Bool.false_ne_true, List.find?_cons_of_neg (by simp [hd]),
            List.find?_cons_of_neg (by simp [hd]), ih]

theorem hasId_unique {id j : Rat} {d : Json} (h : hasId id d = true) (hj : hasId j d = true) : id = j := by
  unfold hasId at h hj
  split at h
  · rename_i v hv
    rw [hv] at hj
    exact (of_decide_eq_true h).symm.trans (of_decide_eq_true hj)
  · cases h

theorem find_updateFirst_ne {id j : Rat} {f : Json → Json} (hne : id ≠ j)
    (hf : ∀ d, hasId id d = true → hasId id (f d) = true) (ds : List Json) :
    (updateFirst id f ds).find? (hasId j) = ds.find? (hasId j) := by
  have hnot : ∀ d, hasId id d = true → ¬ hasId j d = true := fun d h hj => hne (hasId_unique h hj)
  induction ds with
  | nil => rfl
  | cons d ds ih =>
      rw [updateFirst]
      cases hd : hasId id d with
      | true =>
          rw [if_pos rfl, List.find?_cons_of_neg (hnot _ (hf d hd)), List.find?_cons_of_neg (hnot d hd)]
      | false => rw [if_neg Bool.false_ne_true, List.find?_cons, List.find?_cons, ih]

theorem hasId_set {id : Rat} {d v : Json} {name : String} (hname : "id" ≠ name) :
    hasId id (.object (Object.set d.toObject name v)) = hasId id d := by
  have hlookup : List.lookup "id" (Object.set d.toObject name v) = List.lookup "id" d.toObject := by
    rw [Object.lookup_set, if_neg hname]
  show (match List.lookup "id" (Object.set d.toObject name v) with
    | some (.number v) => decide (v = id)
    | _ => false) = _
  rw [hlookup]
  rfl

theorem hasId_setPortValue (data : Object) (id : Rat) (p : Json) :
    hasId id (setPortValue data p) = hasId id p := by
  rw [setPortValue]
  split
  · exact hasId_set (by decide)
  · rfl

theorem portOn_setPortValues (data : Object) (d : Json) (id : Int32) :
    portOn (setPortValues data d) id = (portOn d id).map (setPortValue data) := by
  have hports : Object.get (setPortValues data d).toObject "ports" =
      .array ((Object.get d.toObject "ports").toArray.map (setPortValue data)) := Object.get_set_self _ _ _
  rw [portOn, hports, portOn]
  show List.find? _ (List.map _ _) = _
  rw [List.find?_map]
  congr 2
  funext p
  exact hasId_setPortValue data _ p

theorem hasId_setPortValues (id : Rat) (data : Object) (d : Json) :
    hasId id (setPortValues data d) = hasId id d := hasId_set (by decide)

theorem hasId_setConnected (id : Rat) (connected : Bool) (d : Json) :
    hasId id (setConnected connected d) = hasId id d := hasId_set (by decide)

theorem eventPort_device (e : Event) : (eventPort e).1 = doubleOfInt e.deviceId := by
  unfold eventPort Event.toJson
  cases e.type <;> rfl

/-- An event of another device changes nothing that is shown for this one. -/
theorem valueOn_other {e : Event} {x : Int32} (hx : e.deviceId ≠ x) (devices : List Json) (id : Int32) :
    valueOn (onMessage devices e.toJson) x id = valueOn devices x id := by
  have hne : (Object.get e.toJson "device_id").toNumber ≠ doubleOfInt x := by
    intro heq
    have hdevice : doubleOfInt e.deviceId = doubleOfInt x := (eventPort_device e).symm.trans heq
    exact hx (by rw [← intOfDouble_doubleOfInt e.deviceId, hdevice, intOfDouble_doubleOfInt])
  unfold valueOn onMessage
  dsimp only
  split
  · rw [find_updateFirst_ne hne fun d h => (hasId_setPortValues _ _ d).trans h]
  split
  · rw [find_updateFirst_ne hne fun d h => (hasId_setConnected _ _ d).trans h]
  split
  · rw [find_updateFirst_ne hne fun d h => (hasId_setConnected _ _ d).trans h]
  · rfl

/-- What a `port_set` does to what is shown: the port it names is shown with its value, where it is listed
    at all. -/
theorem valueOn_portSet {e : Event} (htype : e.type = .portSet) (devices : List Json) (x id : Int32) :
    valueOn (onMessage devices e.toJson) x id =
      if portName x id = eventPort e then (valueOn devices x id).map fun _ => eventValue e
      else valueOn devices x id := by
  have htext : (Object.get e.toJson "type").toStr = ascii "port_set" := by
    unfold Event.toJson
    rw [htype]
    rfl
  have hdevice := hasId_setPortValues (eventPort e).1 e.toJson
  have hmessage : onMessage devices e.toJson =
      updateFirst (eventPort e).1 (setPortValues e.toJson) devices := if_pos htext
  rw [hmessage]
  by_cases hx : (eventPort e).1 = doubleOfInt x
  · rw [valueOn, ← hx, find_updateFirst (fun d h => (hdevice d).trans h), valueOn, ← hx]
    cases hfind : devices.find? (hasId (eventPort e).1) with
    | none => simp
    | some d =>
        rw [Option.map_some, Option.bind_some, Option.bind_some, portOn_setPortValues]
        cases hport : portOn d id with
        | none => simp
        | some p =>
            have hp : hasId (doubleOfInt id) p = true := List.find?_some hport
            simp only [Option.map_some]
            by_cases hid : (eventPort e).2 = doubleOfInt id
            · have hset : setPortValue e.toJson p =
                  .object (Object.set p.toObject "value" (eventValue e)) :=
                if_pos (by rw [← hid] at hp; exact hp)
              rw [hset, if_pos (Prod.ext hx.symm hid.symm)]
              exact congrArg some (Object.get_set_self _ _ _)
            · have hkeep : setPortValue e.toJson p = p :=
                if_neg fun h => hid (hasId_unique h hp)
              rw [hkeep, if_neg fun h => hid (congrArg Prod.snd h).symm]
  · have hne : portName x id ≠ eventPort e := fun h => hx (congrArg Prod.fst h).symm
    rw [if_neg hne, valueOn, find_updateFirst_ne hx (fun d h => (hdevice d).trans h), valueOn]

/-- The events of interest for a device: its own that set a port, and those of others. -/
def Relevant (x : Int32) (e : Event) : Prop := e.type = .portSet ∨ e.deviceId ≠ x

theorem portName_other {e : Event} {x : Int32} (hx : e.deviceId ≠ x) (id : Int32) :
    portName x id ≠ eventPort e := by
  intro heq
  have hdevice : doubleOfInt x = doubleOfInt e.deviceId :=
    (congrArg Prod.fst heq).trans (eventPort_device e)
  exact hx (by rw [← intOfDouble_doubleOfInt e.deviceId, ← hdevice, intOfDouble_doubleOfInt])

theorem valueOn_onMessage {e : Event} {x : Int32} (h : Relevant x e) (devices : List Json) (id : Int32) :
    valueOn (onMessage devices e.toJson) x id =
      if portName x id = eventPort e then (valueOn devices x id).map fun _ => eventValue e
      else valueOn devices x id := by
  by_cases hx : e.deviceId = x
  · exact valueOn_portSet (h.resolve_right fun hne => hne hx) devices x id
  · rw [if_neg (portName_other hx id), valueOn_other hx]

/-- The page once it has handled events. -/
def handled (devices : List Json) (q : List Event) : List Json :=
  q.foldl (fun devices e => onMessage devices e.toJson) devices

theorem handled_snoc (devices : List Json) (q : List Event) (e : Event) :
    handled devices (q ++ [e]) = onMessage (handled devices q) e.toJson := by
  rw [handled, List.foldl_append]
  rfl

/-- The last value that events have for a port. -/
def lastSent (q : List Event) (x id : Int32) : Option Json :=
  replay eventPort eventValue q (portName x id)

/-- What is shown in the end: the last value that is on its way, and where there is none what is shown
    already. -/
theorem valueOn_handled {q : List Event} {x : Int32} (hq : ∀ e ∈ q, Relevant x e) (devices : List Json)
    (id : Int32) :
    valueOn (handled devices q) x id =
      (valueOn devices x id).map fun v => (lastSent q x id).getD v := by
  induction q using List.reverseRecOn with
  | nil =>
      show valueOn devices x id = (valueOn devices x id).map fun v => v
      rw [Option.map_id']
  | append_singleton q e ih =>
      rw [handled_snoc, valueOn_onMessage (hq e (by simp)),
        ih fun e' he' => hq e' (List.mem_append_left _ he'), lastSent, lastSent, replay_snoc]
      split
      · rw [Option.map_map]
        rfl
      · rfl

/-! ## 2. The server and the page -/

/-- Where a silent call is, instead of publishing. -/
def SetCall.silenced : SetCall → SetCall
  | .publish n => .store n
  | .idle => .idle
  | .compare n => .compare n
  | .signal n => .signal n
  | .store n => .store n
  | .returned => .returned

/-- A call of `set_value` on the port with this id. -/
structure PortCall where
  port : Int32 := 0
  silent : Bool := false
  call : SetCall := .idle

/-- An answer of `actions::devices` that is being written: the documents of the devices before and behind
    this one, and its ports as they were read. -/
structure Writing where
  before : List Json
  behind : List Json
  read : DeviceState

/-- The device with its row, its callers, the events posted to the `io_service`, and the page with its
    devices. `socket` has the events its session was handed and the page has not handled, `none` while
    the session does not listen; `answer` is the answer to the request for the devices on its way.
    `asked`, the ports as they were read for it, and `loaded`, whether it has arrived, are history. -/
structure DevicesPage (ι : Type) where
  device : DeviceState
  calls : ι → PortCall := fun _ => {}
  posted : List Event := []
  socket : Option (List Event) := none
  writing : Option Writing := none
  answer : Option (List Json) := none
  asked : Option DeviceState := none
  devices : List Json := []
  loaded : Bool := false

/-- What can happen next. A caller calls `set_value` on a port, silently for a parameter of an `aps`, or
    its call takes a step; `other` is an event of another device; `handOver` is when the events thread
    hands a posted event to those who listen; `index` begins the answer of `actions::devices`, with the
    devices before and behind this one, `read` reads one of its ports, `given` ends it. -/
inductive PageStep (ι : Type) where
  | call (i : ι) (port newValue : Int32) (silent : Bool)
  | advance (i : ι)
  | other (e : Event)
  | handOver
  | message
  | index (before behind : List Json)
  | read (id : Int32)
  | given
  | answered
  | opened
  | closed

namespace DevicesPage

variable {ι : Type} [DecidableEq ι] (row : Device)

/-- The registry, as far as the JSON of the device looks into it. -/
def registry (d : DeviceState) : Registry := Function.update (fun _ => none) row.id (some d)

/-- The JSON of the device. -/
def document (d : DeviceState) : Json := .object (Device.model.toJsonObject (registry row d) row)

/-- The call of `i` has come to a place. -/
def moved (s : DevicesPage ι) (i : ι) (call : SetCall) : DevicesPage ι :=
  { s with calls := Function.update s.calls i { s.calls i with call } }

/-- The next step of the call of `i`. -/
def advance (s : DevicesPage ι) (i : ι) : DevicesPage ι :=
  match s.device.port (s.calls i).port with
  | none => s
  | some p =>
      let (memory, call) := (s.calls i).call.step s.device { port := p, posted := s.posted }
      { s.moved i (if (s.calls i).silent then call.silenced else call) with
        device := { s.device with ports := s.device.ports.insert p.id memory.port }
        posted := memory.posted }

def enabled (s : DevicesPage ι) : PageStep ι → Prop
  | .call i port _ _ => (s.calls i).call.underWay = false ∧ (s.device.port port).isSome
  | .advance i => (s.calls i).call.underWay = true
  | .other e => e.deviceId ≠ row.id
  | .handOver => s.posted ≠ []
  | .message => ∃ e q, s.socket = some (e :: q)
  | .index before _ => s.writing = none ∧ s.answer = none ∧ s.loaded = false ∧
      ∀ d ∈ before, hasId (doubleOfInt row.id) d = false
  | .read id => (s.device.port id).isSome ∧ ∃ w, s.writing = some w ∧ w.read.port id = none
  | .given => ∃ w, s.writing = some w ∧
      ∀ id, (s.device.port id).isSome → (w.read.port id).isSome
  | .answered => s.answer.isSome
  | .opened => s.socket = none
  | .closed => True

def step (s : DevicesPage ι) : PageStep ι → DevicesPage ι
  | .call i port newValue silent =>
      { s with calls := Function.update s.calls i { port, silent, call := .compare newValue } }
  | .advance i => s.advance i
  | .other e => { s with posted := s.posted ++ [e] }
  | .handOver => { s with
      posted := s.posted.tail, socket := s.socket.map (· ++ s.posted.head?.toList) }
  | .message => { s with
      devices := handled s.devices (s.socket.getD []).head?.toList
      socket := s.socket.map List.tail }
  | .index before behind => { s with writing := some ⟨before, behind, { s.device with ports := ∅ }⟩ }
  | .read id => { s with
      writing := s.writing.map fun w => { w with
        read := { w.read with ports := (s.device.port id).elim w.read.ports (w.read.ports.insert id) } } }
  | .given => { s with
      writing := none
      answer := s.writing.map fun w => w.before ++ document row w.read :: w.behind
      asked := s.writing.map Writing.read }
  | .answered => { s with devices := s.answer.getD [], answer := none, loaded := true }
  | .opened => { s with socket := some [] }
  | .closed => { s with socket := none }

def machine (ι : Type) [DecidableEq ι] : Machine (DevicesPage ι) (PageStep ι) Empty where
  enabled := enabled row
  step s a := .ok (step row s a)

/-- The events that the page is going to handle, as long as its socket is open. -/
def onTheirWay (s : DevicesPage ι) : List Event := s.socket.elim [] (· ++ s.posted)

/-- What the page shows for a port, once it has handled the events on their way. -/
def shows (s : DevicesPage ι) (id : Int32) : Option Json :=
  valueOn (handled s.devices s.onTheirWay) row.id id

/-- A call of another caller than `i` has found another value of the port and not stored its own. -/
def OthersStore (s : DevicesPage ι) (i : ι) (id : Int32) : Prop :=
  ∃ j ≠ i, (s.calls j).port = id ∧ (s.calls j).call.stores = true

/-- No call has yet to store to the port. -/
def Stored (s : DevicesPage ι) (id : Int32) : Prop :=
  ∀ i, ¬ ((s.calls i).port = id ∧ (s.calls i).call.stores = true)

/-- A page that is loaded shows every port of the device with its value, once it has handled the events
    on their way and unless a call has yet to store to the port. -/
def Current (s : DevicesPage ι) : Prop :=
  s.loaded = true → ∀ id p, s.device.port id = some p → s.Stored id →
    s.shows row id = some (portValue p)

/-- A step in time. Where no other call has yet to store to the port, a store is of the value that a
    loaded page shows: the last one that it was sent. When the socket opens, the last of the events of a
    port that are still posted has its value, and when it closes no value is lost with it. When the
    answer arrives, the last event of a port on its way has the port's value, and a port without one still
    has the value that was read for the answer. -/
def InTime (s : DevicesPage ι) : PageStep ι → Prop
  | .advance i => ∀ n p, (s.calls i).call = .store n → s.loaded = true →
      ¬ s.OthersStore i (s.calls i).port → s.device.port (s.calls i).port = some p →
        s.shows row (s.calls i).port = some (portValue { p with value := n })
  | .answered => ∀ d, s.asked = some d → ∀ id p₀ p, d.port id = some p₀ → s.device.port id = some p →
      s.Stored id → (lastSent s.onTheirWay row.id id).getD (portValue p₀) = portValue p
  | .opened => s.loaded = true → ∀ id p v, s.device.port id = some p → s.Stored id →
      lastSent s.posted row.id id = some v → v = portValue p
  | .closed => s.loaded = true → ∀ id p v, s.device.port id = some p → s.Stored id →
      lastSent s.onTheirWay row.id id = some v → valueOn s.devices row.id id = some v
  | .call _ _ _ _ | .other _ | .handOver | .message | .index _ _ | .read _ | .given => True

/-! ## 3. The answer -/

theorem hasId_document (hid : row.id ≠ 0) (d : DeviceState) :
    hasId (doubleOfInt row.id) (document row d) = true := by
  have hlookup : List.lookup "id" (document row d).toObject = some (.number (doubleOfInt row.id)) := by
    simp [document, Json.toObject, ModelClass.toJsonObject, ModelClass.toJsonField, Device.model,
      Field.toJson, optJSON, optDB, optFromJSON, optToJSON, Object.lookup_set, hid]
  rw [hasId, hlookup]
  exact decide_eq_true rfl

/-- The entry for a port of the row. -/
theorem lookup_portJson (d : DeviceState) (q : Port) :
    ∃ e, Device.portJson (registry row d) (some d) q = .object e ∧
      List.lookup "id" e = some (.number (doubleOfInt q.id)) ∧
      List.lookup "value" e = (d.port q.id).map portValue := by
  obtain ⟨e, he, hentry⟩ := portEntry_portJson (registry row d) (some d) q
  exact ⟨e, he, hentry.id, hentry.value⟩

theorem hasId_portJson (d : DeviceState) (q : Port) (id : Int32) :
    hasId (doubleOfInt id) (Device.portJson (registry row d) (some d) q) = true ↔ q.id = id := by
  obtain ⟨e, he, hid, -⟩ := lookup_portJson row d q
  have hlookup : List.lookup "id" (Json.object e).toObject = some (.number (doubleOfInt q.id)) := hid
  rw [he, hasId, hlookup]
  refine ⟨fun h => ?_, fun h => decide_eq_true (by rw [h])⟩
  rw [← intOfDouble_doubleOfInt q.id, of_decide_eq_true h, intOfDouble_doubleOfInt]

/-- The answer lists the ports of the device with their values. -/
theorem valueOn_index (hid : row.id ≠ 0) {before : List Json}
    (hbefore : ∀ d ∈ before, hasId (doubleOfInt row.id) d = false) (behind : List Json)
    {d : DeviceState} {id : Int32} {p : PortState} (hp : d.port id = some p)
    (hlisted : ∃ q ∈ row.specifications.ports.toList, q.2.id = id) :
    valueOn (before ++ document row d :: behind) row.id id = some (portValue p) := by
  have hfind : (before ++ document row d :: behind).find? (hasId (doubleOfInt row.id)) =
      some (document row d) := by
    have hnone : before.find? (hasId (doubleOfInt row.id)) = none :=
      List.find?_eq_none.mpr fun d hd => by rw [hbefore d hd]; exact Bool.false_ne_true
    rw [List.find?_append, hnone, Option.none_or, List.find?_cons_of_pos (hasId_document row hid d)]
  have hports : (Object.get (document row d).toObject "ports").toArray =
      row.specifications.ports.toList.map fun p => Device.portJson (registry row d) (some d) p.2 := by
    have hlookup := (deviceToJson_lookup (registry row d) row).2.2
    rw [show registry row d row.id = some d from Function.update_self _ _ _] at hlookup
    show ((List.lookup "ports" (Device.model.toJsonObject _ row)).getD .null).toArray = _
    rw [hlookup]
    rfl
  obtain ⟨q, hq, hqid⟩ := hlisted
  have hsome : (row.specifications.ports.toList.find? (hasId (doubleOfInt id) ∘ fun p =>
      Device.portJson (registry row d) (some d) p.2)).isSome :=
    List.find?_isSome.mpr ⟨q, hq, (hasId_portJson row d q.2 id).mpr hqid⟩
  obtain ⟨q', hfind'⟩ := Option.isSome_iff_exists.mp hsome
  have hmatch := @List.find?_some _ _ _ _ hfind'
  have hq' : q'.2.id = id := (hasId_portJson row d q'.2 id).mp hmatch
  obtain ⟨e, he, -, hvalue⟩ := lookup_portJson row d q'.2
  have hentry : portOn (document row d) id = some (.object e) := by
    rw [portOn, hports, List.find?_map]
    exact (congrArg (Option.map _) hfind').trans (congrArg some he)
  rw [valueOn, hfind, Option.bind_some, hentry, Option.map_some]
  show some ((List.lookup "value" e).getD .null) = _
  rw [hvalue, hq', hp]
  rfl

/-! ## 4. Steps of a call -/

variable {row} {s s' : DevicesPage ι} {act : PageStep ι} {i : ι}

theorem calls_moved_self (call : SetCall) :
    (s.moved i call).calls i = { s.calls i with call } := Function.update_self _ _ _

theorem calls_moved_other {j : ι} (hj : j ≠ i) (call : SetCall) :
    (s.moved i call).calls j = s.calls j := Function.update_of_ne hj _ _

theorem calls_call_self (port n : Int32) (silent : Bool) :
    (step row s (.call i port n silent)).calls i = ⟨port, silent, .compare n⟩ :=
  Function.update_self _ _ _

theorem calls_call_other {j : ι} (hj : j ≠ i) (port n : Int32) (silent : Bool) :
    (step row s (.call i port n silent)).calls j = s.calls j := Function.update_of_ne hj _ _

/-- What a step of a call can do: nothing that is seen, publish an event of its port, store. It may have
    returned without a store only where it had none to make. -/
inductive Advanced (s : DevicesPage ι) (i : ι) : DevicesPage ι → Prop
  | quiet (call : SetCall) : ((s.calls i).call.stores = true → call.stores = true) →
      (∀ n, (s.calls i).call ≠ .store n) → Advanced s i (s.moved i call)
  | publishes (call : SetCall) {p : PortState} {n : Int32} :
      s.device.port (s.calls i).port = some p → (s.calls i).call = .publish n → call.stores = true →
        Advanced s i { s.moved i call with posted := s.posted ++ [portSetEvent s.device p n] }
  | stores {p : PortState} {n : Int32} : s.device.port (s.calls i).port = some p →
      (s.calls i).call = .store n →
        Advanced s i { s.moved i .returned with device := (s.device.setValue p n true).device }

/-- The value of a port as a silent `set_value` leaves it. -/
theorem insert_setValue {d : DeviceState} (hk : d.Keyed) {id : Int32} {p : PortState}
    (hp : d.port id = some p) (n : Int32) :
    { d with ports := d.ports.insert p.id { p with value := n } } = (d.setValue p n true).device := by
  by_cases hv : p.value = n
  · rw [DeviceState.setValue_of_eq d p n true hv, ← hv]
    have hport : d.ports[p.id]? = some p := by
      rw [hk hp]
      exact hp
    rw [OrderedMap.insert_self hport]
  · rw [DeviceState.setValue, if_neg hv]
    rfl

theorem advanced (hk : s.device.Keyed) {p : PortState} (hp : s.device.port (s.calls i).port = some p)
    (he : (s.calls i).call.underWay = true) : Advanced s i (s.advance i) := by
  have hsame : { s.device with ports := s.device.ports.insert p.id p } = s.device := by
    have hinsert := insert_setValue hk hp p.value
    rwa [DeviceState.setValue_of_eq _ _ _ _ rfl] at hinsert
  unfold advance
  rw [hp]
  cases hcall : (s.calls i).call with
  | idle | returned =>
      rw [hcall] at he
      cases he
  | compare n =>
      have hquiet : ∀ call, Advanced s i (s.moved i call) := fun call =>
        .quiet call (by rw [hcall]; exact fun h => by cases h) (by rw [hcall]; exact fun _ h => by cases h)
      simp only [SetCall.step]
      split
      · simp only [hsame]
        exact hquiet _
      · simp only [hsame]
        exact hquiet _
  | publish n =>
      simp only [SetCall.step, hsame]
      refine .publishes _ hp hcall ?_
      split <;> rfl
  | signal n =>
      have hquiet : ∀ call : SetCall, call.stores = true → Advanced s i (s.moved i call) :=
        fun call hcall' => .quiet call (fun _ => hcall') (by rw [hcall]; exact fun _ h => by cases h)
      simp only [SetCall.step]
      split
      · simp only [hsame]
        refine hquiet _ ?_
        split <;> rfl
      · simp only [hsame]
        refine hquiet _ ?_
        split <;> rfl
  | store n =>
      simp only [SetCall.step, insert_setValue hk hp, SetCall.silenced, ite_self]
      exact .stores hp hcall

omit [DecidableEq ι] in
theorem stored_iff_others (s : DevicesPage ι) (i : ι) (id : Int32) : s.Stored id ↔
    ¬ ((s.calls i).port = id ∧ (s.calls i).call.stores = true) ∧ ¬ s.OthersStore i id := by
  constructor
  · intro h
    exact ⟨h i, fun hex => by
      obtain ⟨j, -, hj⟩ := hex
      exact h j hj⟩
  · rintro ⟨hi, hothers⟩ j hj
    by_cases hji : j = i
    · exact hi (hji ▸ hj)
    · exact hothers ⟨j, hji, hj⟩

/-- The acting caller and the others. -/
theorem stored_moved {call : SetCall} {id : Int32} : (s.moved i call).Stored id ↔
    ¬ ((s.calls i).port = id ∧ call.stores = true) ∧ ¬ s.OthersStore i id := by
  have hothers : (s.moved i call).OthersStore i id ↔ s.OthersStore i id := by
    refine exists_congr fun j => and_congr_right fun hj => ?_
    rw [calls_moved_other hj]
  rw [stored_iff_others _ i, calls_moved_self, hothers]

/-! ## 5. Invariants -/

/-- What is so in every state: the device's ports are those of the row, calls are on them, the events of
    the device are those of its ports, and the answer on its way lists every port with the value that
    was read. -/
structure Listed (row : Device) (s : DevicesPage ι) : Prop where
  keyed : s.device.Keyed
  id : s.device.id = row.id
  listed : ∀ id p, s.device.port id = some p → ∃ q ∈ row.specifications.ports.toList, q.2.id = id
  called : ∀ i, (s.calls i).call.underWay = true → (s.device.port (s.calls i).port).isSome
  posted : ∀ e ∈ s.posted, Relevant row.id e
  events : ∀ q, s.socket = some q → ∀ e ∈ q, Relevant row.id e
  writing : ∀ w, s.writing = some w → ∀ d ∈ w.before, hasId (doubleOfInt row.id) d = false
  answer : ∀ a, s.answer = some a → ∃ d, s.asked = some d ∧ ∀ id p, s.device.port id = some p →
    ∃ p₀, d.port id = some p₀ ∧ valueOn a row.id id = some (portValue p₀)

omit [DecidableEq ι] in
theorem Listed.onTheirWay (h : Listed row s) : ∀ e ∈ s.onTheirWay, Relevant row.id e := by
  intro e he
  unfold DevicesPage.onTheirWay at he
  cases hsocket : s.socket with
  | none =>
      rw [hsocket] at he
      cases he
  | some q =>
      rw [hsocket] at he
      rcases List.mem_append.mp he with he | he
      · exact h.events q hsocket e he
      · exact h.posted e he

/-- A call that takes a step is on a port. -/
theorem Listed.advanced (h : Listed row s) (he : (s.calls i).call.underWay = true) :
    Advanced s i (s.advance i) := by
  obtain ⟨p, hp⟩ := Option.isSome_iff_exists.mp (h.called i he)
  exact DevicesPage.advanced h.keyed hp he

/-- The ports that are called, behind a step of the call of `i`. -/
theorem called_moved (h : Listed row s) (he : (s.calls i).call.underWay = true) (call : SetCall) :
    ∀ j, ((s.moved i call).calls j).call.underWay = true →
      (s.device.port ((s.moved i call).calls j).port).isSome := by
  intro j hj
  by_cases hji : j = i
  · subst hji
    rw [calls_moved_self]
    exact h.called j he
  · rw [calls_moved_other hji] at hj ⊢
    exact h.called j hj

theorem listed_advanced (h : Listed row s) (he : (s.calls i).call.underWay = true)
    (ha : Advanced s i s') : Listed row s' := by
  cases ha with
  | quiet call _ _ =>
      exact ⟨h.keyed, h.id, h.listed, called_moved h he call, h.posted, h.events, h.writing, h.answer⟩
  | @publishes call p n hp _ _ =>
      refine ⟨h.keyed, h.id, h.listed, called_moved h he call, fun e hmem => ?_, h.events, h.writing,
        h.answer⟩
      rcases List.mem_append.mp hmem with hmem | hmem
      · exact h.posted e hmem
      · rw [List.mem_singleton.mp hmem]
        exact .inl rfl
  | @stores p n hp _ =>
      have hk : s.device.Keyed := h.keyed
      have hports := DeviceState.isSome_port_setValue hk hp n true
      have hbefore : ∀ {id q}, (s.device.setValue p n true).device.port id = some q →
          ∃ q, s.device.port id = some q := by
        intro id q hq
        refine Option.isSome_iff_exists.mp ?_
        rw [← hports, hq]
        rfl
      refine ⟨hk.setValue hp n true, (DeviceState.setValue_id _ _ _ _).trans h.id, ?_, ?_,
        h.posted, h.events, h.writing, ?_⟩
      · intro id q hq
        obtain ⟨q, hq⟩ := hbefore hq
        exact h.listed id q hq
      · intro j hj
        rw [hports]
        exact called_moved h he .returned j hj
      · intro a ha
        obtain ⟨d, hd, hvalues⟩ := h.answer a ha
        refine ⟨d, hd, fun id q hq => ?_⟩
        obtain ⟨q, hq⟩ := hbefore hq
        exact hvalues id q hq

theorem listed_step (hid : row.id ≠ 0) (h : Listed row s) (he : enabled row s act) :
    Listed row (step row s act) := by
  cases act with
  | call i port n silent =>
      refine ⟨h.keyed, h.id, h.listed, fun j hj => ?_, h.posted, h.events, h.writing, h.answer⟩
      by_cases hji : j = i
      · subst hji
        rw [calls_call_self]
        exact he.2
      · rw [calls_call_other hji] at hj ⊢
        exact h.called j hj
  | advance i => exact listed_advanced h he (h.advanced he)
  | other e =>
      refine ⟨h.keyed, h.id, h.listed, h.called, fun e' he' => ?_, h.events, h.writing, h.answer⟩
      rcases List.mem_append.mp he' with he' | he'
      · exact h.posted e' he'
      · rw [List.mem_singleton.mp he']
        exact .inr he
  | handOver =>
      refine ⟨h.keyed, h.id, h.listed, h.called, fun e he' => h.posted e (List.mem_of_mem_tail he'), ?_,
        h.writing, h.answer⟩
      intro q hq e he'
      obtain ⟨q', hq', rfl⟩ := Option.map_eq_some_iff.mp hq
      rcases List.mem_append.mp he' with he' | he'
      · exact h.events q' hq' e he'
      · exact h.posted e (List.mem_of_mem_head? (Option.mem_toList.mp he'))
  | message =>
      refine ⟨h.keyed, h.id, h.listed, h.called, h.posted, ?_, h.writing, h.answer⟩
      intro q hq e he'
      obtain ⟨q', hq', rfl⟩ := Option.map_eq_some_iff.mp hq
      exact h.events q' hq' e (List.mem_of_mem_tail he')
  | index before behind =>
      refine ⟨h.keyed, h.id, h.listed, h.called, h.posted, h.events, fun w hw => ?_, h.answer⟩
      cases hw
      exact he.2.2.2
  | read id =>
      refine ⟨h.keyed, h.id, h.listed, h.called, h.posted, h.events, fun w hw => ?_, h.answer⟩
      obtain ⟨w', hw', rfl⟩ := Option.map_eq_some_iff.mp hw
      exact h.writing w' hw'
  | given =>
      obtain ⟨w, hw, hread⟩ := he
      refine ⟨h.keyed, h.id, h.listed, h.called, h.posted, h.events, fun w' hw' => (by cases hw'),
        fun a ha => ⟨w.read, congrArg (Option.map Writing.read) hw, fun id p hp => ?_⟩⟩
      have hp : s.device.port id = some p := hp
      obtain ⟨p₀, hp₀⟩ := Option.isSome_iff_exists.mp (hread id (by rw [hp]; rfl))
      have hanswer : a = w.before ++ document row w.read :: w.behind := by
        have ha : s.writing.map (fun w => w.before ++ document row w.read :: w.behind) = some a := ha
        rw [hw] at ha
        exact (Option.some.inj ha).symm
      rw [hanswer]
      exact ⟨p₀, hp₀, valueOn_index row hid (h.writing w hw) w.behind hp₀ (h.listed id p hp)⟩
  | answered =>
      exact ⟨h.keyed, h.id, h.listed, h.called, h.posted, h.events, h.writing, fun a ha => by cases ha⟩
  | opened =>
      refine ⟨h.keyed, h.id, h.listed, h.called, h.posted, ?_, h.writing, h.answer⟩
      intro q hq e he'
      cases hq
      cases he'
  | closed =>
      exact ⟨h.keyed, h.id, h.listed, h.called, h.posted, fun q hq => absurd hq (by simp [step]),
        h.writing, h.answer⟩

/-! ## 6. What a step leaves shown -/

omit [DecidableEq ι] in
/-- An event that is posted changes nothing that is shown for another port. -/
theorem shows_posted {e : Event} (he : Relevant row.id e) (id : Int32)
    (hne : portName row.id id ≠ eventPort e) :
    ({ s with posted := s.posted ++ [e] } : DevicesPage ι).shows row id = s.shows row id := by
  unfold shows onTheirWay
  cases s.socket with
  | none => rfl
  | some q =>
      show valueOn (handled s.devices (q ++ (s.posted ++ [e]))) row.id id = _
      rw [← List.append_assoc, handled_snoc, valueOn_onMessage he, if_neg hne]
      rfl

omit [DecidableEq ι] in
theorem shows_eq (h : Listed row s) (id : Int32) : s.shows row id =
    (valueOn s.devices row.id id).map fun v => (lastSent s.onTheirWay row.id id).getD v :=
  valueOn_handled h.onTheirWay _ _

/-- A step of a call keeps the page current exactly if it is in time. -/
theorem current_advanced (h : Listed row s) (hc : Current row s) (ha : Advanced s i s') :
    Current row s' ↔ InTime row s (.advance i) := by
  cases ha with
  | quiet call hstores hcall =>
      refine iff_of_true (fun hl id p hp hstored => hc hl id p hp ?_) fun n p hn => absurd hn (hcall n)
      rw [stored_moved] at hstored
      rw [stored_iff_others s i]
      exact ⟨fun hex => hstored.1 ⟨hex.1, hstores hex.2⟩, hstored.2⟩
  | @publishes call p n hp hcall hstores =>
      refine iff_of_true (fun hl id q hq hstored => ?_) fun m p hm => by rw [hcall] at hm; cases hm
      -- the port of the event has a call that is yet to store
      have hstored : (s.moved i call).Stored id := hstored
      have hne : (s.calls i).port ≠ id := fun heq => (stored_moved.mp hstored).1 ⟨heq, hstores⟩
      have hname : portName row.id id ≠ eventPort (portSetEvent s.device p n) := by
        rw [eventPort_portSetEvent, h.id, h.keyed hp]
        exact fun heq => hne (portName_injective row.id heq).symm
      have hbefore : s.Stored id := by
        rw [stored_iff_others s i]
        exact ⟨fun hex => hne hex.1, (stored_moved.mp hstored).2⟩
      exact (shows_posted (.inl rfl) id hname).trans (hc hl id q hq hbefore)
  | @stores p n hp hcall =>
      have hport := DeviceState.port_setValue h.keyed hp n true
      have hafter : ∀ id, ({ s.moved i .returned with
          device := (s.device.setValue p n true).device } : DevicesPage ι).Stored id ↔
            ¬ s.OthersStore i id := by
        intro id
        exact stored_moved.trans (and_iff_right fun hex => by cases hex.2)
      constructor
      · intro h' m q hm hl hothers hq
        rw [hcall] at hm
        cases hm
        rw [hp] at hq
        cases hq
        exact h' hl _ _ ((hport _).trans (if_pos rfl)) ((hafter _).mpr hothers)
      · intro hin hl id q hq hstored
        have hq : (s.device.setValue p n true).device.port id = some q := hq
        rw [hport] at hq
        by_cases hid : id = (s.calls i).port
        · rw [if_pos hid] at hq
          rw [← Option.some.inj hq, hid]
          exact hin n p hcall hl (hid ▸ (hafter id).mp hstored) hp
        · rw [if_neg hid] at hq
          refine hc hl id q hq ((stored_iff_others s i id).mpr ⟨fun hex => hid hex.1.symm, ?_⟩)
          exact (hafter id).mp hstored

/-- Handing an event over changes nothing that is shown, and neither does handling it. -/
theorem shows_handOver (id : Int32) : (step row s .handOver).shows row id = s.shows row id := by
  unfold shows onTheirWay
  show valueOn (handled s.devices
    ((s.socket.map (· ++ s.posted.head?.toList)).elim [] (· ++ s.posted.tail))) row.id id = _
  cases s.socket with
  | none => rfl
  | some q =>
      cases hposted : s.posted with
      | nil => simp
      | cons e posted => simp

theorem shows_message {e : Event} {q : List Event} (hq : s.socket = some (e :: q)) (id : Int32) :
    (step row s .message).shows row id = s.shows row id := by
  unfold shows onTheirWay
  show valueOn (handled (handled s.devices (s.socket.getD []).head?.toList)
    ((s.socket.map List.tail).elim [] (· ++ s.posted))) row.id id = _
  rw [hq]
  rfl

/-- The answer keeps the page current exactly if it is in time. -/
theorem current_answered (h : Listed row s) (he : s.answer.isSome) :
    Current row (step row s .answered) ↔ InTime row s .answered := by
  obtain ⟨a, ha⟩ := Option.isSome_iff_exists.mp he
  obtain ⟨d, hd, hvalues⟩ := h.answer a ha
  have hshown : ∀ id p₀, valueOn a row.id id = some (portValue p₀) →
      (step row s .answered).shows row id =
        some ((lastSent s.onTheirWay row.id id).getD (portValue p₀)) := by
    intro id p₀ hvalue
    show valueOn (handled (s.answer.getD []) s.onTheirWay) row.id id = _
    rw [ha, Option.getD_some, valueOn_handled h.onTheirWay, hvalue, Option.map_some]
  constructor
  · intro h' d' hd' id p₀ p hp₀ hp hstored
    rw [hd] at hd'
    cases hd'
    obtain ⟨p₁, hp₁, hvalue⟩ := hvalues id p hp
    rw [hp₀] at hp₁
    cases hp₁
    exact Option.some.inj ((hshown id p₀ hvalue).symm.trans (h' rfl id p hp hstored))
  · intro hin _ id p hp hstored
    obtain ⟨p₀, hp₀, hvalue⟩ := hvalues id p hp
    exact (hshown id p₀ hvalue).trans (congrArg some (hin d hd id p₀ p hp₀ hp hstored))

omit [DecidableEq ι] in
/-- The socket is closed: what is shown is what the page has. -/
theorem shows_closed (hsocket : s.socket = none) (id : Int32) :
    s.shows row id = valueOn s.devices row.id id := by
  unfold shows onTheirWay
  rw [hsocket]
  rfl

/-- The opening of the socket keeps the page current exactly if it is in time. -/
theorem current_opened (h : Listed row s) (hc : Current row s) (hsocket : s.socket = none) :
    Current row (step row s .opened) ↔ InTime row s .opened := by
  have hshown : ∀ id v, valueOn s.devices row.id id = some v → (step row s .opened).shows row id =
      some ((lastSent s.posted row.id id).getD v) := by
    intro id v hv
    show valueOn (handled s.devices s.posted) row.id id = _
    rw [valueOn_handled h.posted, hv, Option.map_some]
  constructor
  · intro h' hl id p v hp hstored hv
    have hdevices := (shows_closed hsocket id).symm.trans (hc hl id p hp hstored)
    have hnow := (hshown id _ hdevices).symm.trans (h' hl id p hp hstored)
    rw [hv] at hnow
    exact Option.some.inj hnow
  · intro hin hl id p hp hstored
    have hdevices := (shows_closed hsocket id).symm.trans (hc hl id p hp hstored)
    refine (hshown id _ hdevices).trans (congrArg some ?_)
    cases hv : lastSent s.posted row.id id with
    | none => rfl
    | some v => exact hin hl id p v hp hstored hv

/-- The closing of the socket keeps the page current exactly if it is in time. -/
theorem current_closed (h : Listed row s) (hc : Current row s) :
    Current row (step row s .closed) ↔ InTime row s .closed := by
  have hshown : ∀ id, (step row s .closed).shows row id = valueOn s.devices row.id id :=
    fun id => shows_closed rfl id
  constructor
  · intro h' hl id p v hp hstored hv
    have hdevices := (hshown id).symm.trans (h' hl id p hp hstored)
    have hbefore := hc hl id p hp hstored
    rw [shows_eq h, hdevices, hv] at hbefore
    rw [hdevices]
    exact hbefore.symm
  · intro hin hl id p hp hstored
    have hbefore := hc hl id p hp hstored
    rw [shows_eq h] at hbefore
    refine (hshown id).trans ?_
    cases hv : lastSent s.onTheirWay row.id id with
    | none =>
        rw [hv] at hbefore
        exact Option.map_id'.symm.trans hbefore
    | some v =>
        rw [hv, hin hl id p v hp hstored hv] at hbefore
        rw [hin hl id p v hp hstored hv]
        exact hbefore

/-- A step keeps the page current exactly if it is in time. -/
theorem current_step (h : Listed row s) (hc : Current row s) (he : enabled row s act) :
    Current row (step row s act) ↔ InTime row s act := by
  cases act with
  | call i port n silent =>
      refine iff_of_true (fun hl id p hp hstored => hc hl id p hp fun j hj => ?_) trivial
      by_cases hji : j = i
      · subst hji
        rw [(SetCall.stores_of_idle he.1).2] at hj
        cases hj.2
      · refine hstored j ?_
        rw [calls_call_other hji]
        exact hj
  | advance i => exact current_advanced h hc (h.advanced he)
  | other e =>
      refine iff_of_true (fun hl id p hp hstored => ?_) trivial
      exact (shows_posted (.inr he) id (portName_other he id)).trans (hc hl id p hp hstored)
  | handOver =>
      exact iff_of_true (fun hl id p hp hstored =>
        (shows_handOver id).trans (hc hl id p hp hstored)) trivial
  | message =>
      obtain ⟨e, q, hq⟩ := he
      exact iff_of_true (fun hl id p hp hstored =>
        (shows_message hq id).trans (hc hl id p hp hstored)) trivial
  | index before behind => exact iff_of_true hc trivial
  | read id => exact iff_of_true hc trivial
  | given => exact iff_of_true hc trivial
  | answered => exact current_answered h he
  | opened => exact current_opened h hc he
  | closed => exact current_closed h hc

/-! ## 7. Runs -/

/-- The device as it is made, and no page yet. -/
def initial (ι : Type) (row : Device) : DevicesPage ι := { device := DeviceState.new row }

omit [DecidableEq ι] in
theorem listed_initial (row : Device) : Listed row (initial ι row) where
  keyed := DeviceState.keyed_new row
  id := rfl
  listed id _ hp := DeviceState.port_new
    (P := fun j _ => ∃ q ∈ row.specifications.ports.toList, q.2.id = j) row
    (fun p hp => ⟨p, hp, rfl⟩) hp
  called _ hi := by cases hi
  posted _ he := absurd he List.not_mem_nil
  events _ hq := by cases hq
  writing _ hw := by cases hw
  answer _ ha := by cases ha

theorem meter_port {id : Int32} (h : ((DeviceState.new meter).port id).isSome) : id = 3 := by
  obtain ⟨p, hp⟩ := Option.isSome_iff_exists.mp h
  exact DeviceState.port_new (P := fun j _ => j = 3) meter (by decide) hp

end DevicesPage

end Domoio
