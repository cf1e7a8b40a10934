import Domoio.Lib.Numeral
import Domoio.World

/-
  File:      Domoio/Devices.lean
  Subject:   What the writers of port values do to a live device.

  Every writer goes through `setValue`: the HTTP action and the JavaScript setter with the value
  they decode, `aps` silently with the value a parameter names. `port_setValue` says what a port
  lookup gives afterwards; it needs that the map of the ports is keyed by the ports' own ids
  (`Keyed`), which holds of a new device state and is kept.
-/

namespace Domoio

open Lib World

/-- A `set` message tells the port and the value. -/
theorem setMessage_inj {id id' v v' : Int32} (h : setMessage id v = setMessage id' v') :
    id = id' ∧ v = v' := by
  have hblank : ∀ n : Int32, (32 : UInt8) ∉ decimal n := fun n =>
    (numeral_decimal n).notMem (by decide) (by decide) (by decide)
  have htext : decimal id ++ 32 :: decimal v = decimal id' ++ 32 :: decimal v' := by
    unfold setMessage at h
    rw [List.append_assoc, List.append_assoc, List.append_assoc, List.append_assoc] at h
    exact List.append_cancel_left h
  obtain ⟨hid, -, hv⟩ := (List.append_cons_inj_of_notMem (hblank id) (hblank v)).mp htext
  exact ⟨decimal_injective hid, decimal_injective hv⟩

namespace DeviceState

/-! ## 1. `set_value` -/

section SetValue

variable (d : DeviceState) (p : PortState) (v : Int32) (silent : Bool)

theorem setValue_of_eq (h : p.value = v) : d.setValue p v silent = { device := d } := by
  rw [setValue, if_pos h]

/-- `set_value` writes the device's ports only. -/
theorem setValue_frame :
    (d.setValue p v silent).device = { d with ports := (d.setValue p v silent).device.ports } := by
  unfold setValue
  split
  · rfl
  · split <;> rfl

@[simp] theorem setValue_id : (d.setValue p v silent).device.id = d.id := by rw [setValue_frame]

@[simp] theorem setValue_isVirtual : (d.setValue p v silent).device.isVirtual = d.isVirtual := by
  rw [setValue_frame]

@[simp] theorem setValue_networkSignals :
    (d.setValue p v silent).device.networkSignals = d.networkSignals := by
  rw [setValue_frame]

end SetValue

/-- The ports are keyed by their own ids. -/
def Keyed (d : DeviceState) : Prop := ∀ {id p}, d.port id = some p → p.id = id

variable {d : DeviceState} {p : PortState} {id : Int32}

/-- The ports after `set_value` on the port with this id. -/
theorem port_setValue (hd : d.Keyed) (hp : d.port id = some p) (v : Int32) (silent : Bool)
    (j : Int32) : (d.setValue p v silent).device.port j =
      if j = id then some { p with value := v } else d.port j := by
  by_cases hv : p.value = v
  · rw [setValue_of_eq d p v silent hv]
    subst hv
    by_cases hj : j = id
    · rw [if_pos hj, hj, hp]
    · rw [if_neg hj]
  · have hports : (d.setValue p v silent).device.ports =
        d.ports.insert p.id { p with value := v } := by
      rw [setValue, if_neg hv]
      cases silent <;> rfl
    rw [port, hports, Std.ExtTreeMap.getElem?_insert, hd hp]
    simp only [Std.compare_eq_iff_eq, eq_comm (a := id)]
    rfl

/-- Setting a value does not change which ports there are. -/
theorem isSome_port_setValue (hd : d.Keyed) (hp : d.port id = some p) (v : Int32) (silent : Bool)
    (j : Int32) : ((d.setValue p v silent).device.port j).isSome = (d.port j).isSome := by
  rw [port_setValue hd hp]
  split
  · rename_i hj
    rw [hj, hp]
    rfl
  · rfl

theorem Keyed.setValue (hd : d.Keyed) (hp : d.port id = some p) (v : Int32) (silent : Bool) :
    (d.setValue p v silent).device.Keyed := by
  intro j q hq
  rw [port_setValue hd hp] at hq
  split at hq
  · rename_i hj
    cases hq
    show p.id = j
    rw [hj]
    exact hd hp
  · exact hd hq

/-- What holds of every port state that is made holds of the map of a new device state. -/
theorem ports_foldl {P : Int32 → PortState → Prop} (l : List (Int32 × Port))
    (hport : ∀ p ∈ l, P p.2.id { id := p.2.id, digital := p.2.digital, output := p.2.output })
    (m : Std.ExtTreeMap Int32 PortState) (hm : ∀ (j : Int32) (q : PortState), m[j]? = some q → P j q)
    (j : Int32) (q : PortState) (hq : (l.foldl (fun ports p => ports.insert p.2.id
      { id := p.2.id, digital := p.2.digital, output := p.2.output }) m)[j]? = some q) :
    P j q := by
  induction l generalizing m with
  | nil => exact hm j q hq
  | cons p l ih =>
      refine ih (fun p hp => hport p (List.mem_cons_of_mem _ hp)) _ (fun j q hq => ?_) hq
      rw [Std.ExtTreeMap.getElem?_insert] at hq
      split at hq
      · rename_i hc
        cases hq
        rw [← Std.compare_eq_iff_eq.mp hc]
        exact hport p List.mem_cons_self
      · exact hm j q hq

/-- What holds of every port state that is made of a device's ports holds of its new ports. -/
theorem port_new {P : Int32 → PortState → Prop} (device : Device)
    (hport : ∀ p ∈ device.specifications.ports.toList,
      P p.2.id { id := p.2.id, digital := p.2.digital, output := p.2.output })
    {j : Int32} {q : PortState} (hq : (DeviceState.new device).port j = some q) : P j q :=
  ports_foldl device.specifications.ports.toList hport ∅ (fun j q h => by simp at h) j q hq

/-- The ports of a new device state are keyed by their own ids. -/
theorem keyed_new (device : Device) : (DeviceState.new device).Keyed := by
  intro j q hq
  exact port_new (P := fun j q => q.id = j) device (fun _ _ => rfl) hq

/-- They have not been set. -/
theorem value_new {device : Device} {id : Int32} {p : PortState}
    (hp : (DeviceState.new device).port id = some p) : p.value = -1 :=
  port_new (P := fun _ q => q.value = -1) device (fun _ _ => rfl) hp

/-! ## 2. The three writers -/

/-- The value the HTTP action sets on a port. -/
def httpValue (p : PortState) (doc : Object) : Int32 :=
  if p.digital then if (Object.get doc "value").toBoolean then 1 else 0
  else intOfDouble (Object.get doc "value").toNumber

theorem httpSetPort_eq (d : DeviceState) (p : PortState) (doc : Object) :
    d.httpSetPort p doc = d.setValue p (httpValue p doc) := by
  unfold httpSetPort httpValue setValueBool
  split <;> rfl

/-- The value the JavaScript setter sets. -/
def jsValue (value : JsValue) (junk : Int32) : Int32 :=
  match value with
  | .boolean b => if b then 1 else 0
  | .int32 n => n
  | .other => junk

theorem jsSetPortValue_eq (d : DeviceState) (p : PortState) (value : JsValue) (junk : Int32) :
    d.jsSetPortValue p value junk = d.setValue p (jsValue value junk) := by
  cases value <;> rfl

/-- Every parameter of an `aps` request names a port of the device. -/
def namesPorts (d : DeviceState) (junk : Nat → Int32 × Int32) (i : Nat) (params : List Bytes) :
    Bool :=
  (params.zipIdx i).all fun q => (d.port (commands.apsTarget (junk q.2) q.1).1).isSome

/-- One round of `aps` on a port it finds. -/
theorem apsLoop_found (junk : Nat → Int32 × Int32) (i : Nat) (param : Bytes) (params : List Bytes)
    (hp : d.port (commands.apsTarget (junk i) param).1 = some p) :
    commands.apsLoop junk i (param :: params) d = commands.apsLoop junk (i + 1) params
      (d.setValue p (commands.apsTarget (junk i) param).2 true).device := by
  rw [commands.apsLoop]
  simp only [hp]
  by_cases hv : p.value = (commands.apsTarget (junk i) param).2
  · rw [if_neg (not_not.mpr hv), setValue_of_eq d p _ true hv]
  · rw [if_pos hv]

theorem apsLoop_missing (junk : Nat → Int32 × Int32) (i : Nat) (param : Bytes)
    (params : List Bytes) (hp : d.port (commands.apsTarget (junk i) param).1 = none) :
    commands.apsLoop junk i (param :: params) d = (d, false) := by
  rw [commands.apsLoop]
  simp only [hp]

/-- `aps` writes the device's ports only. -/
theorem apsLoop_frame (junk : Nat → Int32 × Int32) (i : Nat) (params : List Bytes)
    (d : DeviceState) : (commands.apsLoop junk i params d).1 =
      { d with ports := (commands.apsLoop junk i params d).1.ports } := by
  induction params generalizing i d with
  | nil => rfl
  | cons param params ih =>
      cases hp : d.port (commands.apsTarget (junk i) param).1 with
      | none => rw [apsLoop_missing junk i param params hp]
      | some p =>
          rw [apsLoop_found junk i param params hp, ih, setValue_frame]

theorem Keyed.apsLoop (hd : d.Keyed) (junk : Nat → Int32 × Int32) (i : Nat) (params : List Bytes) :
    (commands.apsLoop junk i params d).1.Keyed := by
  induction params generalizing i d with
  | nil => exact hd
  | cons param params ih =>
      cases hp : d.port (commands.apsTarget (junk i) param).1 with
      | none =>
          rw [apsLoop_missing junk i param params hp]
          exact hd
      | some p =>
          rw [apsLoop_found junk i param params hp]
          exact ih (hd.setValue hp _ true) _

/-- `aps` gets through exactly when every parameter names a port: setting values does not change
    which ports there are. -/
theorem apsLoop_snd (hd : d.Keyed) (junk : Nat → Int32 × Int32) (i : Nat) (params : List Bytes) :
    (commands.apsLoop junk i params d).2 = d.namesPorts junk i params := by
  induction params generalizing i d with
  | nil => rfl
  | cons param params ih =>
      cases hp : d.port (commands.apsTarget (junk i) param).1 with
      | none =>
          rw [apsLoop_missing junk i param params hp]
          simp [namesPorts, hp]
      | some p =>
          rw [apsLoop_found junk i param params hp, ih (hd.setValue hp _ true)]
          simp only [namesPorts, isSome_port_setValue hd hp, List.zipIdx_cons, List.all_cons, hp,
            Option.isSome_some, Bool.true_and]

end DeviceState

end Domoio
