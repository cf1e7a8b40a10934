import Domoio.Persistence
import Domoio.Reread

/-
  File:      Domoio/Reloaded.lean
  Subject:   What the specifications column gives back through the JSON library itself.

  `Persistence` leaves open what the reader makes of a written document. Here the library's own reader
  reads it: a device comes back with every string of its specifications up to its first NUL and encoded
  again, and with its ports under their own ids (`afterLoad_beforeSave`). That is the device as it was
  exactly when its strings have no NUL and are encoded in the shortest way and its ports are kept under
  their own ids.
-/

namespace Domoio

open Lib Reader

variable {env : Registry} {d : Doubles}

/-! ## 1. Ports -/

/-- The members of a port with this name. -/
def portMembers (p : Port) (name : Bytes) : Object :=
  if p.id = 0 then
    [("name", .string name), ("digital", .boolean p.digital), ("output", .boolean p.output),
      ("id", .number 0)]
  else
    [("id", .number (doubleOfInt p.id)), ("name", .string name), ("digital", .boolean p.digital),
      ("output", .boolean p.output)]

theorem portToJson_eq (p : Port) :
    Port.model.toJsonObject env p = portMembers p (cString p.name) := by
  by_cases hid : p.id = 0
  · simp [ModelClass.toJsonObject, ModelClass.toJsonField, Port.model, Field.toJson, optJSON, optDB,
      optFromJSON, optToJSON, portMembers, hid, Object.set]
  · simp [ModelClass.toJsonObject, ModelClass.toJsonField, Port.model, Field.toJson, optJSON, optDB,
      optFromJSON, optToJSON, portMembers, hid, Object.set]

theorem reread_number_int (n : Int32) :
    (Json.number (doubleOfInt n)).reread d = some (.number (doubleOfInt n)) := by
  rw [Json.reread, d.parse_format_int]

theorem reread_string (s : Bytes) : (Json.string s).reread d = some (.string (reread s)) := by
  rw [Json.reread]

theorem reread_boolean (b : Bool) : (Json.boolean b).reread d = some (.boolean b) := by
  rw [Json.reread]

theorem reread_port (p : Port) (name : Bytes) :
    (Json.object (portMembers p name)).reread d = some (.object (portMembers p (reread name))) := by
  have hname : nameOf (reread (ascii "name")) = "name" := by decide
  have hid : nameOf (reread (ascii "id")) = "id" := by decide
  have hdigital : nameOf (reread (ascii "digital")) = "digital" := by decide
  have houtput : nameOf (reread (ascii "output")) = "output" := by decide
  have hzero : (Json.number 0).reread d = some (.number 0) := reread_number_int 0
  rw [reread_object]
  unfold portMembers
  split_ifs with h
  · refine ⟨_, ?_, by simp, rfl⟩
    simp [Json.rereadMembers, hname, hid, hdigital, houtput, hzero, reread_string, reread_boolean]
  · refine ⟨_, ?_, by simp, rfl⟩
    simp [Json.rereadMembers, hname, hid, hdigital, houtput, reread_number_int, reread_string,
      reread_boolean]

theorem portOfJson_members (p : Port) (name : Bytes) :
    portOfJson (portMembers p name) = { p with name := name } := by
  obtain ⟨id, old, digital, output⟩ := p
  unfold portMembers
  split_ifs with h
  · have hzero : intOfDouble 0 = 0 := intOfDouble_doubleOfInt 0
    simp only at h
    simp [portOfJson, Object.get, Object.lookup_cons_eq, Json.toNumber, Json.toStr, Json.toBoolean,
      hzero, h]
  · simp [portOfJson, Object.get, Object.lookup_cons_eq, Json.toNumber, Json.toStr, Json.toBoolean]

/-! ## 2. Specifications -/

/-- A string as it is reloaded: what `c_str()` shows of it, encoded again. -/
def reloadedString (s : Bytes) : Bytes := reread (cString s)

/-- A port as it is reloaded. -/
def Port.reloaded (p : Port) : Port := { p with name := reloadedString p.name }

/-- Specifications as they are reloaded: the ports are put in under the ids they have now. -/
def Specifications.reloaded (t : Specifications) : Specifications where
  serial := reloadedString t.serial
  manufacturerRaw := reloadedString t.manufacturerRaw
  modelRaw := reloadedString t.modelRaw
  description := reloadedString t.description
  ports := OrderedMap.rekey Port.id (t.ports.map fun _ p => p.reloaded)

/-- The members of specifications with these strings and ports. -/
def specificationsMembers (serial manufacturer model description : Bytes) (ports : List Json) :
    Object :=
  [("serial", .string serial), ("manufacturer", .string manufacturer), ("model", .string model),
    ("description", .string description), ("ports", .array ports)]

theorem specificationsToJson_eq (t : Specifications) :
    Specifications.model.toJsonObject env t =
      specificationsMembers (cString t.serial) (cString t.manufacturerRaw) (cString t.modelRaw)
        (cString t.description) (Specifications.portsToJson env t.ports) := by
  simp [ModelClass.toJsonObject, ModelClass.toJsonField, Specifications.model, Field.toJson, optJSON,
    optDB, specificationsMembers, Object.set]

theorem rereadElements_map {α : Type} (f g : α → Json) (l : List α)
    (h : ∀ a ∈ l, (f a).reread d = some (g a)) :
    Json.rereadElements d (l.map f) = some (l.map g) := by
  induction l with
  | nil => simp only [List.map_nil, Json.rereadElements]
  | cons a l ih =>
      rw [List.map_cons, rereadElements_cons]
      exact ⟨g a, l.map g, h a List.mem_cons_self, ih fun b hb => h b (List.mem_cons_of_mem a hb), rfl⟩

/-- The documents of ports, read from the written ones. -/
def reloadedPorts (ports : Ports) : List Json :=
  (ports.toList.map fun p => portMembers p.2 (reloadedString p.2.name)).map .object

theorem reread_ports (ports : Ports) :
    Json.rereadElements d (Specifications.portsToJson env ports) = some (reloadedPorts ports) := by
  rw [reloadedPorts, List.map_map]
  refine rereadElements_map _ _ _ fun p _ => ?_
  rw [portToJson_eq]
  exact reread_port p.2 (cString p.2.name)

theorem reread_specifications (t : Specifications) :
    (Json.object (Specifications.model.toJsonObject env t)).reread d =
      some (.object (specificationsMembers (reloadedString t.serial) (reloadedString t.manufacturerRaw)
        (reloadedString t.modelRaw) (reloadedString t.description) (reloadedPorts t.ports))) := by
  have hserial : nameOf (reread (ascii "serial")) = "serial" := by decide
  have hmanufacturer : nameOf (reread (ascii "manufacturer")) = "manufacturer" := by decide
  have hmodel : nameOf (reread (ascii "model")) = "model" := by decide
  have hdescription : nameOf (reread (ascii "description")) = "description" := by decide
  have hports : nameOf (reread (ascii "ports")) = "ports" := by decide
  have harray : (Json.array (Specifications.portsToJson env t.ports)).reread d =
      some (.array (reloadedPorts t.ports)) := by
    rw [Json.reread, reread_ports]
    rfl
  rw [specificationsToJson_eq, reread_object]
  refine ⟨_, ?_, by simp [specificationsMembers], rfl⟩
  simp [specificationsMembers, Json.rereadMembers, hserial, hmanufacturer, hmodel, hdescription, hports,
    reread_string, harray, reloadedString]

/-- The ports read from those documents are the reloaded ones, under their own ids. -/
theorem portsFromJson_reread (t : Specifications) :
    Specifications.portsFromJson (reloadedPorts t.ports) ∅ = .ok t.reloaded.ports := by
  have hports : ((t.ports.toList.map fun p => portMembers p.2 (reloadedString p.2.name)).map
      portOfJson).map (fun p => (p.id, p)) =
        (t.ports.map fun _ p => p.reloaded).toList.map fun p => (p.2.id, p.2) := by
    rw [List.map_map, List.map_map, Std.ExtTreeMap.toList_map, List.map_map]
    refine List.map_congr_left fun p _ => ?_
    simp only [Function.comp_apply, portOfJson_members, Port.reloaded]
  rw [reloadedPorts, portsFromJson_objects, hports]
  rfl

theorem specificationsFromJson_reread (t : Specifications) :
    Specifications.model.fromJsonObject (specificationsMembers (reloadedString t.serial)
        (reloadedString t.manufacturerRaw) (reloadedString t.modelRaw) (reloadedString t.description)
        (reloadedPorts t.ports)) {} = .ok t.reloaded := by
  have hget : ∀ serial manufacturer model description e, Object.get
      (specificationsMembers serial manufacturer model description e) "ports" = .array e := by
    intro serial manufacturer model description e
    simp [specificationsMembers, Object.get, Object.lookup_cons_eq]
  rw [specificationsFromJson_eq, hget, Json.toArray]
  change (Specifications.portsFromJson _ ∅).map _ = _
  rw [portsFromJson_reread]
  simp [specificationsMembers, Object.get, Object.lookup_cons_eq, Json.toStr, Specifications.reloaded,
    Except.map]

/-- The strings of specifications are all encoded in the shortest way. -/
structure Specifications.Shortest (t : Specifications) : Prop where
  serial : shortest t.serial = true
  manufacturerRaw : shortest t.manufacturerRaw = true
  modelRaw : shortest t.modelRaw = true
  description : shortest t.description = true
  names : ∀ (k : Int32) (p : Port), t.ports[k]? = some p → shortest p.name = true

theorem reloadedString_eq_self_iff {s : Bytes} :
    reloadedString s = s ↔ NulFree s ∧ shortest s = true := by
  constructor
  · intro h
    -- neither of the two makes a string longer, so each of them leaves this one as it is
    have hlength : (reloadedString s).length ≤ (cString s).length := by
      rw [reloadedString]
      rcases reread_cases (cString s) with ⟨-, hsame⟩ | ⟨-, hless⟩
      · rw [hsame]
      · exact hless.le
    rw [h] at hlength
    have hcString : cString s = s := (List.takeWhile_prefix _).eq_of_length_le hlength
    rw [reloadedString, hcString] at h
    exact ⟨hcString ▸ nulFree_cString s, reread_eq_self_iff.mp h⟩
  · rintro ⟨hplain, hshortest⟩
    rw [reloadedString, cString_of_nulFree hplain, reread_eq_self_iff.mpr hshortest]

theorem Port.reloaded_eq_self_iff {p : Port} :
    p.reloaded = p ↔ NulFree p.name ∧ shortest p.name = true := by
  rw [← reloadedString_eq_self_iff]
  refine ⟨congrArg Port.name, fun h => ?_⟩
  rw [Port.reloaded, h]

theorem reloadedPorts_eq_self_iff {ports : Ports} :
    OrderedMap.rekey Port.id (ports.map fun _ p => p.reloaded) = ports ↔
      OrderedMap.OwnKeyed Port.id ports ∧
        ∀ (k : Int32) (p : Port), ports[k]? = some p → p.reloaded = p := by
  have hmap : OrderedMap.OwnKeyed Port.id (ports.map fun _ p => p.reloaded) ↔
      OrderedMap.OwnKeyed Port.id ports := OrderedMap.ownKeyed_map_iff fun _ => rfl
  constructor
  · intro h
    have hkeyed : OrderedMap.OwnKeyed Port.id ports := h ▸ OrderedMap.ownKeyed_rekey _
    rw [OrderedMap.rekey_of_ownKeyed (hmap.mpr hkeyed)] at h
    refine ⟨hkeyed, fun k p hp => ?_⟩
    have hk := congrArg (·[k]?) h
    simp only [Std.ExtTreeMap.getElem?_map, hp, Option.map_some] at hk
    exact Option.some.inj hk
  · rintro ⟨hkeyed, hsame⟩
    rw [OrderedMap.rekey_of_ownKeyed (hmap.mpr hkeyed)]
    apply Std.ExtTreeMap.ext_getElem?
    intro k
    rw [Std.ExtTreeMap.getElem?_map]
    cases hk : ports[k]? with
    | none => rfl
    | some p => rw [Option.map_some, hsame k p hk]

/-- Specifications are reloaded as they are exactly when they can be stored and their strings are
    encoded in the shortest way. -/
theorem reloaded_eq_self_iff {t : Specifications} : t.reloaded = t ↔ t.Storable ∧ t.Shortest := by
  constructor
  · intro h
    have hstring : ∀ field : Specifications → Bytes, (field t.reloaded = reloadedString (field t)) →
        NulFree (field t) ∧ shortest (field t) = true := fun field hfield =>
      reloadedString_eq_self_iff.mp (hfield.symm.trans (congrArg field h))
    obtain ⟨hkeyed, hports⟩ := reloadedPorts_eq_self_iff.mp (congrArg Specifications.ports h)
    have hserial := hstring Specifications.serial rfl
    have hmanufacturer := hstring Specifications.manufacturerRaw rfl
    have hmodel := hstring Specifications.modelRaw rfl
    have hdescription := hstring Specifications.description rfl
    have hname := fun k p hp => Port.reloaded_eq_self_iff.mp (hports k p hp)
    exact ⟨⟨⟨hserial.1, hmanufacturer.1, hmodel.1, hdescription.1, fun k p hp => (hname k p hp).1⟩,
        hkeyed⟩,
      ⟨hserial.2, hmanufacturer.2, hmodel.2, hdescription.2, fun k p hp => (hname k p hp).2⟩⟩
  · rintro ⟨hstorable, hshortest⟩
    have hports : OrderedMap.rekey Port.id (t.ports.map fun _ p => p.reloaded) = t.ports :=
      reloadedPorts_eq_self_iff.mpr ⟨hstorable.keyed, fun k p hp =>
        Port.reloaded_eq_self_iff.mpr ⟨hstorable.names k p hp, hshortest.names k p hp⟩⟩
    rw [Specifications.reloaded, hports,
      reloadedString_eq_self_iff.mpr ⟨hstorable.serial, hshortest.serial⟩,
      reloadedString_eq_self_iff.mpr ⟨hstorable.manufacturerRaw, hshortest.manufacturerRaw⟩,
      reloadedString_eq_self_iff.mpr ⟨hstorable.modelRaw, hshortest.modelRaw⟩,
      reloadedString_eq_self_iff.mpr ⟨hstorable.description, hshortest.description⟩]

/-! ## 3. The specifications column -/

/-- A device saved and loaded through the JSON library has its specifications reloaded: the same ones
    exactly when they can be stored and every string of them is encoded in the shortest way. -/
theorem afterLoad_beforeSave (d : Doubles) (env : Registry) (device fresh : Device)
    (hfresh : fresh.specifications = {})
    (hraw : fresh.specificationsRaw =
      (Device.model.beforeSave d.cajun env device).specificationsRaw) :
    Device.model.afterLoad d.cajun fresh =
        .ok { fresh with specifications := device.specifications.reloaded } ∧
      (device.specifications.reloaded = device.specifications ↔
        device.specifications.Storable ∧ device.specifications.Shortest) := by
  refine ⟨?_, reloaded_eq_self_iff⟩
  have hread : d.cajun.read fresh.specificationsRaw = .ok (specificationsMembers
      (reloadedString device.specifications.serial)
      (reloadedString device.specifications.manufacturerRaw)
      (reloadedString device.specifications.modelRaw)
      (reloadedString device.specifications.description)
      (reloadedPorts device.specifications.ports)) := by
    rw [hraw]
    exact Doubles.read_write_iff.mpr (reread_specifications device.specifications)
  have hspecs : Specifications.model.fromJson d.cajun fresh.specificationsRaw fresh.specifications =
      .ok device.specifications.reloaded := by
    rw [hfresh, ModelClass.fromJson_of_read _ hread]
    exact specificationsFromJson_reread device.specifications
  show ((Specifications.model.fromJson d.cajun fresh.specificationsRaw fresh.specifications).bind
    fun specs => .ok { fresh with specifications := specs }) = _
  rw [hspecs]
  rfl

/-- The thermostat, saved and loaded. -/
theorem afterLoad_thermostat :
    Device.model.afterLoad wholeDoubles.cajun { specificationsRaw := (Device.model.beforeSave
        wholeDoubles.cajun (fun _ => none) { specifications := thermostat }).specificationsRaw } =
      .ok { specificationsRaw := (Device.model.beforeSave wholeDoubles.cajun (fun _ => none)
        { specifications := thermostat }).specificationsRaw, specifications := thermostat.reloaded } :=
  (afterLoad_beforeSave wholeDoubles (fun _ => none) { specifications := thermostat }
    { specificationsRaw := (Device.model.beforeSave wholeDoubles.cajun (fun _ => none)
        { specifications := thermostat }).specificationsRaw }
    rfl rfl).1

end Domoio
