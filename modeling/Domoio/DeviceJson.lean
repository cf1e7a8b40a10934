import Domoio.Lib.OrderedMap
import Domoio.Persistence

/-
  File:      Domoio/DeviceJson.lean
  Subject:   The JSON of a device: its specification joined with its live state
             (`Device::after_to_json_object`).

  The ports of the specification are listed twice, under `specifications` as they are and under
  `ports` with the values of the live state, which may have been built from another specification.
  `Merges` says what the join is, over a reading of the names; the code's reading ends a name at its
  first NUL (`device_merges`).
-/

namespace Domoio

open Lib

/-! ## 1. The join -/

/-- The ports of a map: each once, in ascending order of their ids. -/
structure Listing (ports : Ports) (l : List Port) : Prop where
  ascending : l.Pairwise fun p q => p.id < q.id
  mem : ∀ p, p ∈ l ↔ ∃ k : Int32, ports[k]? = some p

/-- An entry for a port, its value where there is one. -/
structure PortEntry (name : Port → Bytes) (p : Port) (value : Option Json) (e : Object) : Prop where
  id : e.lookup "id" = some (.number (doubleOfInt p.id))
  name : e.lookup "name" = some (.string (name p))
  digital : e.lookup "digital" = some (.boolean p.digital)
  output : e.lookup "output" = some (.boolean p.output)
  value : e.lookup "value" = value

/-- `PortState::to_json_object` as a rendering of the state. -/
def PortState.rendering (p : PortState) : Json := portValueJson p.digital p.value

/-- The JSON of a device is the join of its specification with the state that is registered for it. -/
structure Merges (name : Port → Bytes) (d : Device) (state : Option DeviceState) (doc : Object) :
    Prop where
  connected : doc.lookup "connected" = some (.boolean state.isSome)
  ports : ∃ l entries, Listing d.specifications.ports l ∧
    doc.lookup "ports" = some (.array (entries.map .object)) ∧
      List.Forall₂ (fun p e => PortEntry name p
        ((state.bind fun s => s.port p.id).map PortState.rendering) e) l entries
  specifications : ∃ l entries specs, Listing d.specifications.ports l ∧
    doc.lookup "specifications" = some (.object specs) ∧
      specs.lookup "ports" = some (.array (entries.map .object)) ∧
        List.Forall₂ (fun p e => PortEntry name p none e) l entries

/-! ## 2. The two listings -/

/-- The values of a map that is keyed by the ports' ids. -/
theorem listing_toList {ports : Ports} (h : OrderedMap.OwnKeyed Port.id ports) :
    Listing ports (ports.toList.map Prod.snd) := by
  have hid : ∀ p ∈ ports.toList, p.2.id = p.1 := fun p hp =>
    h p.1 p.2 (Std.ExtTreeMap.mem_toList_iff_getElem?_eq_some.mp hp)
  constructor
  · rw [List.pairwise_map]
    refine (Std.ExtTreeMap.ordered_keys_toList (t := ports)).imp_of_mem fun {p q} hp hq hlt => ?_
    rw [hid p hp, hid q hq]
    exact Std.compare_eq_lt.mp hlt
  · intro p
    constructor
    · intro hp
      obtain ⟨⟨k, p⟩, hmem, rfl⟩ := List.mem_map.mp hp
      exact ⟨k, Std.ExtTreeMap.mem_toList_iff_getElem?_eq_some.mp hmem⟩
    · rintro ⟨k, hk⟩
      exact List.mem_map.mpr ⟨(k, p), Std.ExtTreeMap.mem_toList_iff_getElem?_eq_some.mpr hk, rfl⟩

/-- `Port::to_json_object`: an id of 0 is put in behind the other members. -/
theorem portEntry_toJson (env : Registry) (p : Port) :
    PortEntry (fun p => cString p.name) p none (Port.model.toJsonObject env p) := by
  by_cases hid : p.id = 0
  · have hzero : doubleOfInt 0 = 0 := rfl
    constructor <;>
      simp [ModelClass.toJsonObject, ModelClass.toJsonField, Port.model, Field.toJson, optJSON, optDB,
        optFromJSON, optToJSON, Object.lookup_set, hid, hzero]
  · constructor <;>
      simp [ModelClass.toJsonObject, ModelClass.toJsonField, Port.model, Field.toJson, optJSON, optDB,
        optFromJSON, optToJSON, Object.lookup_set, hid]

/-- `PortState::to_json_object` adds the value to an entry and leaves the rest. -/
theorem PortEntry.withValue {name : Port → Bytes} {p : Port} {e : Object}
    (h : PortEntry name p none e) (q : PortState) :
    PortEntry name p (some q.rendering) (q.toJsonObject e) where
  id := by rw [PortState.toJsonObject, Object.lookup_set, if_neg (by decide), h.id]
  name := by rw [PortState.toJsonObject, Object.lookup_set, if_neg (by decide), h.name]
  digital := by rw [PortState.toJsonObject, Object.lookup_set, if_neg (by decide), h.digital]
  output := by rw [PortState.toJsonObject, Object.lookup_set, if_neg (by decide), h.output]
  value := by rw [PortState.toJsonObject, Object.lookup_set, if_pos rfl, PortState.rendering]

/-- An entry of the merged list. -/
theorem portEntry_portJson (env : Registry) (state : Option DeviceState) (p : Port) :
    ∃ e, Device.portJson env state p = .object e ∧ PortEntry (fun p => cString p.name) p
      ((state.bind fun s => s.port p.id).map PortState.rendering) e := by
  unfold Device.portJson
  cases state.bind fun s => s.port p.id with
  | none => exact ⟨_, rfl, portEntry_toJson env p⟩
  | some q => exact ⟨_, rfl, (portEntry_toJson env p).withValue q⟩

/-- Documents built one by one from a list. -/
theorem entries_of_forall {P : Port → Object → Prop} {f : Port → Json}
    (h : ∀ p, ∃ e, f p = .object e ∧ P p e) (l : List Port) :
    ∃ entries : List Object, l.map f = entries.map .object ∧ List.Forall₂ P l entries := by
  induction l with
  | nil => exact ⟨[], rfl, .nil⟩
  | cons p l ih =>
      obtain ⟨e, he, hp⟩ := h p
      obtain ⟨entries, hentries, hl⟩ := ih
      refine ⟨e :: entries, ?_, .cons hp hl⟩
      rw [List.map_cons, List.map_cons, he, hentries]

theorem specificationsToJson_ports (env : Registry) (t : Specifications) :
    (Specifications.model.toJsonObject env t).lookup "ports" =
      some (.array (Specifications.portsToJson env t.ports)) := by
  simp [ModelClass.toJsonObject, Specifications.model, Object.lookup_set]

/-! ## 3. The document -/

theorem deviceToJson_lookup (env : Registry) (d : Device) :
    (Device.model.toJsonObject env d).lookup "connected" = some (.boolean (env d.id).isSome) ∧
      (Device.model.toJsonObject env d).lookup "specifications" =
        some (.object (Specifications.model.toJsonObject env d.specifications)) ∧
      (Device.model.toJsonObject env d).lookup "ports" = some (.array
        (d.specifications.ports.toList.map fun p => Device.portJson env (env d.id) p.2)) := by
  refine ⟨?_, ?_, ?_⟩ <;> simp [ModelClass.toJsonObject, Device.model, Object.lookup_set]

/-- A device whose ports are keyed by their own ids is written as the join of its specification with
    the registered state, whatever that was built from. A name is written up to its first NUL. -/
theorem device_merges (env : Registry) {d : Device}
    (h : OrderedMap.OwnKeyed Port.id d.specifications.ports) :
    Merges (fun p => cString p.name) d (env d.id) (Device.model.toJsonObject env d) := by
  obtain ⟨hconnected, hspecifications, hports⟩ := deviceToJson_lookup env d
  refine ⟨hconnected, ?_, ?_⟩
  · obtain ⟨entries, hmap, hentries⟩ := entries_of_forall (portEntry_portJson env (env d.id))
      (d.specifications.ports.toList.map Prod.snd)
    refine ⟨_, entries, listing_toList h, ?_, hentries⟩
    rw [hports, ← hmap, List.map_map]
    rfl
  · obtain ⟨entries, hmap, hentries⟩ := entries_of_forall
      (fun p => ⟨_, rfl, portEntry_toJson env p⟩) (d.specifications.ports.toList.map Prod.snd)
    refine ⟨_, entries, _, listing_toList h, hspecifications, ?_, hentries⟩
    rw [specificationsToJson_ports, ← hmap, List.map_map]
    rfl

/-! ## 4. A stale state, and a name with a NUL -/

def lampPort : Port := { id := 0, name := ascii "lamp", digital := true }

def fanPort : Port := { id := 4, name := ascii "fan" }

/-- A device with the ports 0 and 4. -/
def driftedDevice : Device where
  id := 5
  specifications := { ports := ((∅ : Ports).insert 0 lampPort).insert 4 fanPort }

/-- Its live state was built when it had the ports 0 and 9. -/
def driftedState : DeviceState where
  id := 5
  isVirtual := false
  ports := ((∅ : Std.ExtTreeMap Int32 PortState).insert 0
    { id := 0, digital := true, output := false, value := 1 }).insert 9
      { id := 9, digital := false, output := false, value := 7 }

theorem device_merges_drifted : Merges (fun p => cString p.name) driftedDevice (some driftedState)
    (Device.model.toJsonObject (fun _ => some driftedState) driftedDevice) :=
  device_merges (fun _ => some driftedState)
    ((OrderedMap.ownKeyed_empty.insert lampPort).insert fanPort)

/-- A port whose name has a NUL inside, as the escape for it in a document gives it. -/
def nulPort : Port := { id := 3, name := [97, 0, 98] }

def nulDevice : Device where
  id := 5
  specifications := { ports := (∅ : Ports).insert 3 nulPort }

theorem not_merges_nul : ¬ ∀ (env : Registry) (d : Device),
    OrderedMap.OwnKeyed Port.id d.specifications.ports →
      Merges Port.name d (env d.id) (Device.model.toJsonObject env d) := by
  intro h
  have hlist : nulDevice.specifications.ports.toList = [(3, nulPort)] := rfl
  obtain ⟨l, entries, hl, hports, hentries⟩ :=
    (h (fun _ => none) nulDevice (OrderedMap.ownKeyed_empty.insert nulPort)).ports
  have hmem : nulPort ∈ l := (hl.mem nulPort).mpr ⟨3, rfl⟩
  rw [(deviceToJson_lookup _ _).2.2, hlist] at hports
  cases hentries with
  | nil => cases hmem
  | @cons p e l entries hp hl' =>
      have he : e = Port.model.toJsonObject (fun _ => none) nulPort := by
        cases entries with
        | nil =>
            cases hports
            rfl
        | cons e' entries => cases hports
      have hname : some (Json.string p.name) = some (.string (cString nulPort.name)) := by
        rw [← hp.name, he, (portEntry_toJson _ _).name]
      obtain ⟨k, hk⟩ := (hl.mem p).mp List.mem_cons_self
      have hmem' := Std.ExtTreeMap.mem_toList_iff_getElem?_eq_some.mpr hk
      rw [hlist] at hmem'
      cases List.mem_singleton.mp hmem'
      cases hname

end Domoio
