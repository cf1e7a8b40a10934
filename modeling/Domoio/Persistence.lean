import Domoio.Lib.OrderedMap
import Domoio.Models

/-
  File:      Domoio/Persistence.lean
  Subject:   The JSON codecs of the stored models, and the specifications column of a device.

  First what the flag-driven loops and the callbacks come to for each model: what a
  `from_json_object` takes from a document (`portFromJson_eq`, `specificationsFromJson_eq`) and what
  a `to_json_object` writes. Over that the round trips: a port and a list of ports are read back as
  they were written (`portOfJson_toJson`, `portsFromJson_toJson`), so specifications are
  (`specifications_reread`), so the text `before_save` leaves in a row gives `after_load` the
  specifications that were saved (`specifications_roundTrip`).
-/

namespace Domoio

open Lib

variable {env : Registry}

/-! ## 1. Ports -/

/-- What a port takes from a document. -/
def portOfJson (doc : Object) : Port where
  id := intOfDouble (Object.get doc "id").toNumber
  name := (Object.get doc "name").toStr
  digital := (Object.get doc "digital").toBoolean
  output := (Object.get doc "output").toBoolean

/-- `from_json_object` writes every member of a port, whatever the port was. -/
theorem portFromJson_eq (doc : Object) (p : Port) :
    Port.model.fromJsonObject doc p = .ok (portOfJson doc) := by
  simp [ModelClass.fromJsonObject, ModelClass.fromJsonField, Port.model, Field.fromJson, optJSON,
    optDB, optFromJSON, portOfJson, Json.toNumber]

/-- What a port writes: its id is left to the base class, or to the callback when it is 0. -/
theorem portToJson_get (env : Registry) (p : Port) :
    Object.get (Port.model.toJsonObject env p) "id" = .number (doubleOfInt p.id) ∧
      Object.get (Port.model.toJsonObject env p) "name" = .string (cString p.name) ∧
      Object.get (Port.model.toJsonObject env p) "digital" = .boolean p.digital ∧
      Object.get (Port.model.toJsonObject env p) "output" = .boolean p.output := by
  by_cases hid : p.id = 0
  · have hzero : doubleOfInt 0 = 0 := rfl
    simp [ModelClass.toJsonObject, ModelClass.toJsonField, Port.model, Field.toJson, optJSON, optDB,
      optFromJSON, optToJSON, hid, hzero]
  · simp [ModelClass.toJsonObject, ModelClass.toJsonField, Port.model, Field.toJson, optJSON, optDB,
      optFromJSON, optToJSON, hid]

/-- A port is read back as it was written: its id through a double, its name up to a NUL. -/
theorem portOfJson_toJson {p : Port} (hp : NulFree p.name) :
    portOfJson (Port.model.toJsonObject env p) = p := by
  obtain ⟨hid, hname, hdigital, houtput⟩ := portToJson_get env p
  unfold portOfJson
  rw [hid, hname, hdigital, houtput, cString_of_nulFree hp]
  simp only [Json.toNumber, Json.toStr, Json.toBoolean, intOfDouble_doubleOfInt]

/-- Each document gives a port, which is put in under its own id. -/
theorem portsFromJson_objects (docs : List Object) (ports : Ports) :
    Specifications.portsFromJson (docs.map .object) ports =
      .ok (ports.insertMany ((docs.map portOfJson).map fun p => (p.id, p))) := by
  induction docs generalizing ports with
  | nil => simp [Specifications.portsFromJson]
  | cons doc docs ih =>
      simp only [List.map_cons, Specifications.portsFromJson, Json.castObject, portFromJson_eq,
        Std.ExtTreeMap.insertMany_cons]
      exact ih _

/-- The ports' names can be written and read back. -/
def NamesPlain (ports : Ports) : Prop := ∀ (k : Int32) (p : Port), ports[k]? = some p → NulFree p.name

theorem namesPlain_empty : NamesPlain ∅ := by
  intro k p h
  simp at h

theorem NamesPlain.insert {ports : Ports} (h : NamesPlain ports) {p : Port} (hp : NulFree p.name)
    (k : Int32) : NamesPlain (ports.insert k p) := by
  intro j q hq
  rw [Std.ExtTreeMap.getElem?_insert] at hq
  split at hq
  · cases hq
    exact hp
  · exact h j q hq

/-- The ports a map of them writes are read into another one under their own ids. -/
theorem portsFromJson_toJson {ports : Ports} (hn : NamesPlain ports) (into : Ports) :
    Specifications.portsFromJson (Specifications.portsToJson env ports) into =
      .ok (into.insertMany (ports.toList.map fun p => (p.2.id, p.2))) := by
  have hdocs : Specifications.portsToJson env ports =
      (ports.toList.map fun p => Port.model.toJsonObject env p.2).map .object := by
    rw [Specifications.portsToJson, List.map_map]
    rfl
  have hports : ((ports.toList.map fun p => Port.model.toJsonObject env p.2).map portOfJson).map
      (fun p => (p.id, p)) = ports.toList.map fun p => (p.2.id, p.2) := by
    rw [List.map_map, List.map_map]
    refine List.map_congr_left fun p hp => ?_
    have hname := hn p.1 p.2 (Std.ExtTreeMap.mem_toList_iff_getElem?_eq_some.mp hp)
    show ((portOfJson (Port.model.toJsonObject env p.2)).id, _) = _
    rw [portOfJson_toJson hname]
  rw [hdocs, portsFromJson_objects, hports]

/-! ## 2. Specifications -/

/-- What specifications take from a document; the ports come on top of those they have. -/
theorem specificationsFromJson_eq (doc : Object) (t : Specifications) :
    Specifications.model.fromJsonObject doc t =
      (Specifications.portsFromJson (Object.get doc "ports").toArray t.ports).map fun ports =>
        { serial := (Object.get doc "serial").toStr
          manufacturerRaw := (Object.get doc "manufacturer").toStr
          modelRaw := (Object.get doc "model").toStr
          description := (Object.get doc "description").toStr
          ports := ports } := by
  simp [ModelClass.fromJsonObject, ModelClass.fromJsonField, Specifications.model, Field.fromJson,
    optJSON, optDB]
  rfl

theorem specificationsToJson_get (env : Registry) (t : Specifications) :
    Object.get (Specifications.model.toJsonObject env t) "serial" = .string (cString t.serial) ∧
      Object.get (Specifications.model.toJsonObject env t) "manufacturer" =
        .string (cString t.manufacturerRaw) ∧
      Object.get (Specifications.model.toJsonObject env t) "model" = .string (cString t.modelRaw) ∧
      Object.get (Specifications.model.toJsonObject env t) "description" =
        .string (cString t.description) ∧
      Object.get (Specifications.model.toJsonObject env t) "ports" =
        .array (Specifications.portsToJson env t.ports) := by
  simp [ModelClass.toJsonObject, ModelClass.toJsonField, Specifications.model, Field.toJson,
    optJSON, optDB]

/-- No string of the specifications has a NUL. -/
structure Specifications.Plain (t : Specifications) : Prop where
  serial : NulFree t.serial
  manufacturerRaw : NulFree t.manufacturerRaw
  modelRaw : NulFree t.modelRaw
  description : NulFree t.description
  names : NamesPlain t.ports

/-- Specifications that can be stored: their strings are plain, and the ports are kept under their
    own ids. -/
structure Specifications.Storable (t : Specifications) : Prop extends t.Plain where
  keyed : OrderedMap.OwnKeyed Port.id t.ports

/-- The document of specifications read into others: the ports come under their own ids on top of
    those there are. -/
theorem specificationsFromJson_toJson {t : Specifications} (h : t.Plain) (into : Specifications) :
    Specifications.model.fromJsonObject (Specifications.model.toJsonObject env t) into =
      .ok { t with ports := into.ports.insertMany (t.ports.toList.map fun p => (p.2.id, p.2)) } := by
  obtain ⟨hserial, hmanufacturer, hmodel, hdescription, hports⟩ :=
    specificationsToJson_get env t
  rw [specificationsFromJson_eq, hserial, hmanufacturer, hmodel, hdescription, hports]
  simp only [Json.toStr, Json.toArray, portsFromJson_toJson h.names,
    cString_of_nulFree h.serial, cString_of_nulFree h.manufacturerRaw,
    cString_of_nulFree h.modelRaw, cString_of_nulFree h.description]
  rfl

/-- Storable specifications are read as they are into others that have no other ports. -/
theorem specifications_reread {t into : Specifications} (h : t.Storable)
    (hp : ∀ k : Int32, into.ports[k]?.isSome → t.ports[k]?.isSome) :
    Specifications.model.fromJsonObject (Specifications.model.toJsonObject env t) into = .ok t := by
  rw [specificationsFromJson_toJson h.toPlain, h.keyed.map_toList, OrderedMap.insertMany_toList hp]

/-- The strings of a document come out of `c_str()`, so they have no NUL. -/
theorem plainMembers_fields {T : Type} (fields : List (Field T))
    (hn : ∀ f ∈ fields, NulFree (ascii f.name)) (t : T) {o : Object}
    (ho : Json.plainMembers o = true) :
    Json.plainMembers (fields.foldl (ModelClass.toJsonField t) o) = true := by
  induction fields generalizing o with
  | nil => exact ho
  | cons f fields ih =>
      refine ih (fun f' hf' => hn f' (List.mem_cons_of_mem _ hf')) ?_
      have hname := hn f List.mem_cons_self
      unfold ModelClass.toJsonField
      split
      · split
        · exact Object.plain_set ho hname rfl
        · exact Object.plain_set ho hname (decide_eq_true (nulFree_cString _))
        · exact Object.plain_set ho hname (decide_eq_true (nulFree_cString _))
        · exact Object.plain_set ho hname rfl
        · exact ho
      · exact ho

theorem plainMembers_id (n : Int32) : Json.plainMembers
    (if n ≠ 0 then Object.set [] "id" (.number (doubleOfInt n)) else []) = true := by
  split
  · exact Object.plain_set rfl (by decide) rfl
  · rfl

theorem plainMembers_portToJson (p : Port) :
    Json.plainMembers (Port.model.toJsonObject env p) = true := by
  have hfields := plainMembers_fields Port.model.fields (by decide) p
    (plainMembers_id p.id)
  show Json.plainMembers (if p.id = 0 then Object.set _ "id" (.number 0) else _) = true
  split
  · exact Object.plain_set hfields (by decide) rfl
  · exact hfields

theorem plainMembers_specificationsToJson (t : Specifications) :
    Json.plainMembers (Specifications.model.toJsonObject env t) = true := by
  have hfields := plainMembers_fields Specifications.model.fields (by decide) t
    (o := []) rfl
  have hports : ∀ l : List (Int32 × Port), Json.plainElements
      (l.map fun p => .object (Port.model.toJsonObject env p.2)) = true := by
    intro l
    induction l with
    | nil => rfl
    | cons p l ih => exact Bool.and_eq_true_iff.mpr ⟨plainMembers_portToJson p.2, ih⟩
  exact Object.plain_set hfields (by decide) (hports t.ports.toList)

/-- What is stored of specifications is a C string. -/
theorem nulFree_specificationsToJson (c : Cajun) (t : Specifications) :
    NulFree (Specifications.model.toJson c env t) :=
  c.nulFree_write (plainMembers_specificationsToJson t)

/-! ## 3. The specifications column -/

/-- Saving a device and loading the row into a new one gives back its specifications. The text in
    between is the same whichever devices are live. -/
theorem specifications_roundTrip {c : Cajun} (env env' : Registry) (d fresh : Device)
    (h : d.specifications.Storable)
    (hc : c.Reproduces (Specifications.model.toJsonObject env d.specifications))
    (hfresh : fresh.specifications = {})
    (hraw : fresh.specificationsRaw = (Device.model.beforeSave c env d).specificationsRaw) :
    Device.model.afterLoad c fresh = .ok { fresh with specifications := d.specifications } ∧
      (Device.model.beforeSave c env' d).specificationsRaw =
        (Device.model.beforeSave c env d).specificationsRaw := by
  refine ⟨?_, rfl⟩
  have hread : Specifications.model.fromJson c fresh.specificationsRaw fresh.specifications =
      .ok d.specifications := by
    rw [hraw, hfresh]
    refine (ModelClass.fromJson_of_read _ hc _).trans ?_
    exact specifications_reread h fun k hk => by simp at hk
  show ((Specifications.model.fromJson c fresh.specificationsRaw fresh.specifications).bind
    fun specs => .ok { fresh with specifications := specs }) = _
  rw [hread]
  rfl

/-- The text of a document whose numbers are whole. -/
def wholeText (o : Object) : Bytes :=
  Writer.element (fun v => decimal (intOfDouble v)) (.object o)

/-- A reader that knows some documents, and the writer for whole numbers. -/
def Cajun.knowing (docs : List Object) : Cajun where
  format v := decimal (intOfDouble v)
  format_plain _ := nulFree_decimal _
  read b := (docs.find? fun o => wholeText o = b).elim (.error .parse) .ok

theorem Cajun.knowing_reproduces {o : Object} (before after : List Object)
    (h : ∀ o' ∈ before, wholeText o' ≠ wholeText o) :
    (Cajun.knowing (before ++ o :: after)).Reproduces o := by
  have hnone : before.find? (fun o' => wholeText o' = wholeText o) = none :=
    List.find?_eq_none.mpr fun o' ho' => by simpa using h o' ho'
  show ((before ++ o :: after).find? (fun o' => wholeText o' = wholeText o)).elim _ _ = _
  rw [List.find?_append, hnone, List.find?_cons_of_pos (by simp)]
  rfl

def heater : Port := { name := ascii "heater", digital := true, output := true }

def sensor : Port := { id := -3, name := ascii "sensor" }

/-- Specifications with a port of id 0 and one of a negative id. -/
def thermostat : Specifications where
  serial := ascii "42"
  ports := ((∅ : Ports).insert 0 heater).insert (-3) sensor

theorem thermostat_storable : thermostat.Storable where
  serial := by decide
  manufacturerRaw := by decide
  modelRaw := by decide
  description := by decide
  names := (namesPlain_empty.insert (p := heater) (by decide) 0).insert (p := sensor) (by decide) (-3)
  keyed := (OrderedMap.ownKeyed_empty.insert heater).insert sensor

/-- What the specifications are written as. -/
def thermostatDoc : Object := Specifications.model.toJsonObject (fun _ => none) thermostat

/-- What is saved of a device with these specifications. -/
def thermostatRaw : Bytes := (Device.model.beforeSave (Cajun.knowing [thermostatDoc])
  (fun _ => none) { specifications := thermostat }).specificationsRaw

theorem specifications_roundTrip_thermostat :
    Device.model.afterLoad (Cajun.knowing [thermostatDoc]) { specificationsRaw := thermostatRaw } =
      .ok { specificationsRaw := thermostatRaw, specifications := thermostat } := by
  have hknown : (Cajun.knowing [thermostatDoc]).Reproduces thermostatDoc :=
    Cajun.knowing_reproduces [] [] (by simp)
  have hc : (Cajun.knowing [thermostatDoc]).Reproduces
      (Specifications.model.toJsonObject (fun _ => none) thermostat) := hknown
  have hraw : thermostatRaw = (Device.model.beforeSave (Cajun.knowing [thermostatDoc])
      (fun _ => none) { specifications := thermostat }).specificationsRaw := by rw [thermostatRaw]
  exact (specifications_roundTrip (c := Cajun.knowing [thermostatDoc]) (fun _ => none)
    (fun _ => none) { specifications := thermostat } { specificationsRaw := thermostatRaw }
    thermostat_storable hc rfl hraw).1

end Domoio
