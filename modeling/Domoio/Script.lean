import Domoio.Reports

/-
  File:      Domoio/Script.lean
  Subject:   A port as a script sees it (src/jsengine/device_template.cc, port_template.cc).

  A script's port object wraps the stored model of the port and the id of its device. Its `value` is
  set through the registry, on the live state. It is read from the wrapped model, and what the getter
  takes for the value is the model's `get_id()`. `showsPort_iff` says when the script sees the port
  that the HTTP API shows, and what it has assigned.
-/

namespace Domoio

open Lib

/-! ## 1. The accessors -/

/-- The object behind a script's port: a stored port with `port->device`. -/
structure ScriptPort where
  port : Port
  deviceId : Int32

/-- `get_ports`: the objects for the ports of a device. -/
def ScriptPort.ofDevice (device : Device) : List ScriptPort :=
  device.specifications.ports.toList.map fun p => { port := p.2, deviceId := device.id }

/-- `get_port_value`. -/
def ScriptPort.value (script : ScriptPort) : World.JsValue :=
  let value := script.port.id
  if script.port.digital then .boolean (decide (value > 0)) else .int32 value

/-- `set_port_value`. The junk is what its uninitialised local holds. -/
def ScriptPort.setValue (script : ScriptPort) (value : World.JsValue) (junk : Int32) : World.Action :=
  .jsSetPortValue script.deviceId script.port.id value junk

/-- A JavaScript value and the JSON element for it. -/
inductive World.JsValue.Is : World.JsValue → Json → Prop
  | boolean (b : Bool) : Is (.boolean b) (.boolean b)
  | int32 (n : Int32) : Is (.int32 n) (.number (doubleOfInt n))

/-- A value of a port's kind. -/
def PortState.Accepts (p : PortState) : World.JsValue → Prop
  | .boolean _ => p.digital = true
  | .int32 _ => p.digital = false
  | .other => False

/-! ## 2. What is read -/

variable {script : ScriptPort} {p : PortState}

/-- The id of the wrapped port, taken for a value, shows what the live port shows. -/
def SameShown (script : ScriptPort) (p : PortState) : Prop :=
  script.port.digital = p.digital ∧
    if p.digital then (0 < script.port.id ↔ 0 < p.value) else script.port.id = p.value

/-- The id of the wrapped port, taken for a value, is the value. -/
def IdIs (script : ScriptPort) : World.JsValue → Prop
  | .boolean b => script.port.digital = true ∧ (0 < script.port.id ↔ b = true)
  | .int32 n => script.port.digital = false ∧ script.port.id = n
  | .other => False

theorem is_boolean_iff (v : World.JsValue) (b : Bool) : v.Is (.boolean b) ↔ v = .boolean b := by
  constructor
  · intro h
    cases h
    rfl
  · intro h
    rw [h]
    exact .boolean b

theorem is_number_iff (v : World.JsValue) (n : Int32) :
    v.Is (.number (doubleOfInt n)) ↔ v = .int32 n := by
  constructor
  · intro h
    generalize hq : doubleOfInt n = q at h
    cases h with
    | int32 m => rw [← intOfDouble_doubleOfInt n, hq, intOfDouble_doubleOfInt]
  · intro h
    rw [h]
    exact .int32 n

/-- What is read is the wrapped port's id. -/
theorem value_eq_iff (v : World.JsValue) : script.value = v ↔ IdIs script v := by
  unfold ScriptPort.value IdIs
  cases hdigital : script.port.digital with
  | true =>
      cases v with
      | boolean b => cases b <;> simp
      | int32 n => simp
      | other => simp
  | false => cases v <;> simp

theorem value_is_iff : script.value.Is (WatchedDevice.portValue p) ↔ SameShown script p := by
  rw [WatchedDevice.portValue_eq, portValueJson, SameShown]
  cases hdigital : p.digital with
  | true =>
      rw [if_pos rfl, if_pos rfl, is_boolean_iff, value_eq_iff]
      simp [IdIs]
  | false =>
      rw [if_neg (by decide), if_neg (by decide), is_number_iff, value_eq_iff]
      simp [IdIs]

/-! ## 3. What is assigned -/

variable {w w' : World} {a : Addr} {d : DeviceState} {value : World.JsValue} {junk : Int32}

/-- The port, the events and the messages of a world are those of another. -/
def SamePort (a : Addr) (w w' : World) : Prop :=
  w'.heap a = w.heap a ∧ w'.events = w.events ∧ w'.conns = w.conns

/-- The script's port is the live one: it shows what the port's JSON shows, a value of its kind is
    read back once it is assigned, and an assignment of neither a boolean nor an `int32` does
    nothing. -/
structure ShowsPort (w : World) (a : Addr) (p : PortState) (script : ScriptPort)
    (value : World.JsValue) (junk : Int32) : Prop where
  read : script.value.Is (WatchedDevice.portValue p)
  assigned : ∀ w', w.step (script.setValue value junk) = .ok w' → p.Accepts value → script.value = value
  ignored : ∀ w', w.step (script.setValue value junk) = .ok w' → value = .other → SamePort a w w'

/-- The assignment is a step of the server. -/
theorem setValue_step (hx : w.find script.deviceId = some a) (hd : w.heap a = some d)
    (hp : d.port script.port.id = some p) :
    w.step (script.setValue value junk) =
      .ok (w.applyEffect a (d.setValue p (DeviceState.jsValue value junk))) := by
  rw [← DeviceState.jsSetPortValue_eq]
  have hset : w.setRegistered script.deviceId script.port.id
      (fun d p => d.jsSetPortValue p value junk) =
        .ok (w.applyEffect a (d.jsSetPortValue p value junk)) := World.setRegistered_port hx hd hp
  exact hset

/-- A call of `set_value` changes nothing exactly when the port has the value: otherwise there is an
    event. -/
theorem samePort_iff (hd : w.heap a = some d) (v : Int32) :
    SamePort a w (w.applyEffect a (d.setValue p v)) ↔ p.value = v := by
  constructor
  · intro h
    by_contra hv
    have hevents := h.2.1
    rw [World.events_applyEffect, List.append_right_eq_self, DeviceState.setValue, if_neg hv] at hevents
    cases hevents
  · intro hv
    have hstore : w.applyEffect a (d.setValue p v) = w := by
      rw [DeviceState.setValue_of_eq d p v false hv]
      show w.store a d = w
      rw [World.store, ← hd, Function.update_eq_self]
    rw [hstore]
    exact ⟨rfl, rfl, rfl⟩

/-- A script sees a live port, and what it assigns to it, exactly when the id of the port shows the
    same as its value, an assigned value of its kind is what the id shows, and the junk that is
    assigned for any other value is the port's value. -/
theorem showsPort_iff (hx : w.find script.deviceId = some a) (hd : w.heap a = some d)
    (hp : d.port script.port.id = some p) : ShowsPort w a p script value junk ↔
      SameShown script p ∧ (p.Accepts value → IdIs script value) ∧ (value = .other → junk = p.value) := by
  have hstep : w.step (script.setValue value junk) =
      .ok (w.applyEffect a (d.setValue p (DeviceState.jsValue value junk))) := setValue_step hx hd hp
  constructor
  · intro h
    refine ⟨value_is_iff.mp h.read, fun haccepts => ?_, fun hother => ?_⟩
    · exact (value_eq_iff value).mp (h.assigned _ hstep haccepts)
    · have hsame := (samePort_iff hd _).mp (h.ignored _ hstep hother)
      rw [hother] at hsame
      exact hsame.symm
  · rintro ⟨hshown, hassigned, hignored⟩
    refine ⟨value_is_iff.mpr hshown, fun w' hs haccepts => ?_, fun w' hs hother => ?_⟩
    · exact (value_eq_iff value).mpr (hassigned haccepts)
    · rw [hstep] at hs
      cases hs
      rw [samePort_iff hd, hother, ← hignored hother]
      rfl

/-! ## 4. A script reads the meter -/

/-- The script's object for port 3 of the meter. -/
def meterPort : ScriptPort := { port := { id := 3 }, deviceId := 5 }

theorem showsPort_iff_meter : ∃ p, World.metered.port 3 = some p ∧
    (ShowsPort World.meteredWorld 0 p meterPort (.int32 20) 0 ↔
      SameShown meterPort p ∧ (p.Accepts (.int32 20) → IdIs meterPort (.int32 20)) ∧
        (World.JsValue.int32 20 = .other → 0 = p.value)) := by
  obtain ⟨p, hp⟩ : ∃ p, World.metered.port 3 = some p := Option.isSome_iff_exists.mp (by decide)
  have hfind : World.meteredWorld.find meterPort.deviceId = some 0 := by decide
  have hheap : World.meteredWorld.heap 0 = some World.metered := rfl
  exact ⟨p, hp, showsPort_iff hfind hheap hp⟩

/-- It reads 3, which is the port's id; the port has no value yet. -/
theorem not_showsPort_meter :
    ¬ ∀ (w : World) (a : Addr) (d : DeviceState) (p : PortState) (script : ScriptPort)
      (value : World.JsValue) (junk : Int32), w.find script.deviceId = some a → w.heap a = some d →
        d.port script.port.id = some p → ShowsPort w a p script value junk := by
  intro h
  obtain ⟨p, hp, hbad⟩ : ∃ p, World.metered.port 3 = some p ∧ (p.digital = false ∧ p.value = -1) := by
    decide
  have hfind : World.meteredWorld.find meterPort.deviceId = some 0 := by decide
  have hshown := value_is_iff.mp (h World.meteredWorld 0 World.metered p meterPort .other 0 hfind rfl hp).read
  have hvalue := hshown.2
  rw [if_neg (by simp [hbad.1]), hbad.2] at hvalue
  exact absurd hvalue (by decide)

end Domoio
