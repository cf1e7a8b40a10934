import Domoio.Lib.NodeMap
import Domoio.Lib.OrderedMap
import Domoio.Models

/-
  File:      Domoio/Teardown.lean
  Subject:   Tearing down device states: `DeviceState::~DeviceState`, `disconnect`, `unload_devices`.

  The destructor deletes a port, erases its element and then advances the iterator to it. So it ends
  well exactly where there is no port, and with it the two functions that call it
  (`teardown_exact`). The destructor of the specifications clears its map behind the loop instead, and
  deletes each port once (`specifications_destroyed`).
-/

namespace Domoio

open Lib

/-! ## 1. The code -/

/-- The body of the loop of `DeviceState::~DeviceState`; `deleted` is what has been deleted. -/
def DeviceState.destroyPort (ports : NodeMap Int32 PortState) (it : Iterator)
    (deleted : List PortState) : Except IteratorFault (NodeMap Int32 PortState × List PortState) := do
  let n ← ports.deref it
  let deleted := deleted ++ [n.value]
  let ports ← ports.erase it
  return (ports, deleted)

/-- `DeviceState::~DeviceState`: the ports it deletes. -/
def DeviceState.destroy (fuel : Nat) (d : DeviceState) : Except IteratorFault (List PortState) := do
  let ports := NodeMap.ofEntries d.ports.toList
  let (_, deleted) ← ports.forLoop DeviceState.destroyPort fuel ports.start []
  return deleted

/-- `DeviceState::active_devices`: each id with a state of its own. -/
abbrev ActiveDevices := Std.ExtTreeMap Int32 DeviceState

namespace ActiveDevices

/-- `DeviceState::disconnect`: the registry afterwards, and the ports of the state it deletes. -/
def disconnect (fuel : Nat) (active : ActiveDevices) (deviceId : Int32) :
    Except IteratorFault (ActiveDevices × Option (List PortState)) :=
  match active[deviceId]? with
  | none => .ok (active, none)
  | some state => do
      let deleted ← state.destroy fuel
      return (active.erase deviceId, some deleted)

/-- The body of the loop of `DeviceState::unload_devices`. -/
def unloadDevice (fuel : Nat) (active : NodeMap Int32 DeviceState) (it : Iterator)
    (deleted : List (Int32 × List PortState)) :
    Except IteratorFault (NodeMap Int32 DeviceState × List (Int32 × List PortState)) := do
  let n ← active.deref it
  let ports ← n.value.destroy fuel
  return (active, deleted ++ [(n.key, ports)])

/-- `DeviceState::unload_devices`: the registry afterwards, and the states it deletes by their ids,
    each with its ports. -/
def unloadDevices (fuel : Nat) (active : ActiveDevices) :
    Except IteratorFault (ActiveDevices × List (Int32 × List PortState)) := do
  let devices := NodeMap.ofEntries active.toList
  let (_, deleted) ← devices.forLoop (unloadDevice fuel) fuel devices.start []
  return (∅, deleted)

end ActiveDevices

/-- `Specifications::~Specifications`: the ports it deletes. The map is cleared behind the loop. -/
def Specifications.destroy (fuel : Nat) (t : Specifications) :
    Except IteratorFault (Ports × List Port) := do
  let ports := NodeMap.ofEntries t.ports.toList
  let (_, deleted) ← ports.forLoop
    (NodeMap.keeping fun deleted n => .ok (deleted ++ [n.value])) fuel ports.start []
  return (∅, deleted)

/-! ## 2. What is asked of it -/

/-- Each port of the state has been deleted, once. -/
def DeviceState.TornDown (d : DeviceState) (deleted : List PortState) : Prop :=
  deleted.Perm (d.ports.toList.map Prod.snd)

/-- The destructor ends, no iterator having gone wrong, and has deleted each port once. -/
def DeviceState.DestroysCleanly (d : DeviceState) : Prop :=
  ∃ fuel deleted, d.destroy fuel = .ok deleted ∧ d.TornDown deleted

/-- `disconnect` likewise. -/
def ActiveDevices.DisconnectsCleanly (active : ActiveDevices) (deviceId : Int32) : Prop :=
  ∃ fuel deleted, active.disconnect fuel deviceId = .ok (active.erase deviceId, deleted) ∧
    match active[deviceId]? with
    | none => deleted = none
    | some d => ∃ ports, deleted = some ports ∧ d.TornDown ports

/-- `unload_devices` likewise, for each registered state once. -/
def ActiveDevices.UnloadsCleanly (active : ActiveDevices) : Prop :=
  ∃ fuel deleted, active.unloadDevices fuel = .ok (∅, deleted) ∧
    List.Forall₂ (fun p q => q.1 = p.1 ∧ p.2.TornDown q.2) active.toList deleted

/-! ## 3. The destructor -/

theorem destroyPort_eq : DeviceState.destroyPort =
    NodeMap.erasing fun deleted n => .ok (deleted ++ [n.value]) := rfl

theorem nodes_ofEntries_nil {α β : Type} {entries : List (α × β)} :
    (NodeMap.ofEntries entries).nodes = [] ↔ entries = [] := by
  rw [← List.length_eq_zero_iff, NodeMap.length_ofEntries, List.length_eq_zero_iff]

/-- With a port in the map the iterator that is advanced is the one that was erased. -/
theorem destroy_erased {d : DeviceState} (h : d.ports.toList ≠ []) (fuel : Nat) :
    d.destroy (fuel + 1) = .error .erased := by
  obtain ⟨n, todo, hnodes⟩ := List.exists_cons_of_ne_nil (mt nodes_ofEntries_nil.mp h)
  rw [DeviceState.destroy, destroyPort_eq]
  show (NodeMap.forLoop _ (fuel + 1) _ _ []).bind _ = _
  rw [NodeMap.forLoop_erasing_cons _ hnodes rfl]
  rfl

theorem destroy_eq_ok {d : DeviceState} {fuel : Nat} {deleted : List PortState} :
    d.destroy fuel = .ok deleted ↔ 0 < fuel ∧ d.ports.toList = [] ∧ deleted = [] := by
  cases fuel with
  | zero => exact iff_of_false (fun h => by cases h) fun h => absurd h.1 (Nat.lt_irrefl 0)
  | succ fuel =>
      by_cases hports : d.ports.toList = []
      · rw [DeviceState.destroy]
        show (NodeMap.forLoop _ (fuel + 1) _ _ []).bind _ = _ ↔ _
        rw [NodeMap.forLoop_empty _ (nodes_ofEntries_nil.mpr hports)]
        constructor
        · intro h
          cases h
          exact ⟨Nat.succ_pos fuel, hports, rfl⟩
        · rintro ⟨-, -, rfl⟩
          rfl
      · rw [destroy_erased hports]
        exact iff_of_false nofun fun h => hports h.2.1

theorem destroysCleanly_iff {d : DeviceState} : d.DestroysCleanly ↔ d.ports.toList = [] := by
  constructor
  · rintro ⟨fuel, deleted, h, -⟩
    exact (destroy_eq_ok.mp h).2.1
  · intro hports
    refine ⟨1, [], destroy_eq_ok.mpr ⟨Nat.one_pos, hports, rfl⟩, ?_⟩
    rw [DeviceState.TornDown, hports]
    exact .nil

/-! ## 4. Its callers -/

theorem disconnect_absent {active : ActiveDevices} {deviceId : Int32} (h : active[deviceId]? = none) :
    active.erase deviceId = active := by
  apply Std.ExtTreeMap.ext_getElem?
  intro i
  by_cases hi : i = deviceId
  · rw [hi, h, Std.ExtTreeMap.getElem?_erase_self]
  · exact OrderedMap.getElem?_erase_ne hi

theorem disconnectsCleanly_iff {active : ActiveDevices} {deviceId : Int32} :
    active.DisconnectsCleanly deviceId ↔ ∀ d, active[deviceId]? = some d → d.ports.toList = [] := by
  unfold ActiveDevices.DisconnectsCleanly ActiveDevices.disconnect
  cases hd : active[deviceId]? with
  | none =>
      refine iff_of_true ⟨0, none, ?_, rfl⟩ nofun
      rw [disconnect_absent hd]
  | some d =>
      constructor
      · rintro ⟨fuel, deleted, hrun, -⟩ d' hd'
        cases hd'
        cases hdestroy : d.destroy fuel with
        | error e =>
            dsimp only at hrun
            rw [hdestroy] at hrun
            cases hrun
        | ok ports => exact (destroy_eq_ok.mp hdestroy).2.1
      · intro h
        obtain ⟨fuel, ports, hdestroy, htorn⟩ := destroysCleanly_iff.mpr (h d rfl)
        refine ⟨fuel, some ports, ?_, ports, rfl, htorn⟩
        dsimp only
        rw [hdestroy]
        rfl

theorem unloadDevice_eq (fuel : Nat) : ActiveDevices.unloadDevice fuel =
    NodeMap.keeping fun deleted n =>
      (n.value.destroy fuel).map fun ports => deleted ++ [(n.key, ports)] := by
  funext m it deleted
  unfold ActiveDevices.unloadDevice NodeMap.keeping
  cases m.deref it with
  | error e => rfl
  | ok n =>
      show (n.value.destroy fuel).bind _ = ((n.value.destroy fuel).map _).bind _
      cases n.value.destroy fuel <;> rfl

/-- The states are destroyed one after the other; none of them may have a port. -/
theorem foldlM_unload {fuel : Nat} {nodes : List (Node Int32 DeviceState)}
    {s r : List (Int32 × List PortState)} :
    nodes.foldlM (fun deleted n =>
        (n.value.destroy fuel).map fun ports => deleted ++ [(n.key, ports)]) s = .ok r ↔
      (∀ n ∈ nodes, 0 < fuel ∧ n.value.ports.toList = []) ∧
        r = s ++ nodes.map fun n => (n.key, []) := by
  induction nodes generalizing s with
  | nil =>
      constructor
      · intro h
        cases h
        exact ⟨nofun, (List.append_nil _).symm⟩
      · rintro ⟨-, rfl⟩
        rw [List.map_nil, List.append_nil]
        rfl
  | cons n nodes ih =>
      rw [List.foldlM_cons, List.forall_mem_cons]
      cases hn : n.value.destroy fuel with
      | error e =>
          refine iff_of_false (fun h => by cases h) fun h => ?_
          rw [destroy_eq_ok.mpr ⟨h.1.1.1, h.1.1.2, rfl⟩] at hn
          cases hn
      | ok ports =>
          obtain ⟨hfuel, hports, rfl⟩ := destroy_eq_ok.mp hn
          show nodes.foldlM _ (s ++ [(n.key, [])]) = Except.ok r ↔ _
          rw [ih, List.append_assoc]
          constructor
          · rintro ⟨hall, rfl⟩
            exact ⟨⟨⟨hfuel, hports⟩, hall⟩, rfl⟩
          · rintro ⟨⟨-, hall⟩, rfl⟩
            exact ⟨hall, rfl⟩

/-- The loop of `unload_devices` comes through where no state has a port. -/
theorem unloadLoop_eq_ok {active : ActiveDevices} {fuel : Nat}
    {r : NodeMap Int32 DeviceState × List (Int32 × List PortState)} :
    (NodeMap.ofEntries active.toList).forLoop (ActiveDevices.unloadDevice fuel) fuel
        (NodeMap.ofEntries active.toList).start [] = .ok r ↔
      active.toList.length < fuel ∧ r.1 = NodeMap.ofEntries active.toList ∧
        (∀ p ∈ active.toList, p.2.ports.toList = []) ∧
        r.2 = active.toList.map fun p => (p.1, []) := by
  have hentries := NodeMap.map_entry_ofEntries active.toList
  have hnodes : (NodeMap.ofEntries active.toList).nodes.map (fun n => (n.key, ([] : List PortState))) =
      active.toList.map fun p => (p.1, []) := by
    conv_rhs => rw [← hentries, List.map_map]
    rfl
  have hports : (∀ n ∈ (NodeMap.ofEntries active.toList).nodes, n.value.ports.toList = []) ↔
      ∀ p ∈ active.toList, p.2.ports.toList = [] := by
    conv_rhs => rw [← hentries]
    rw [List.forall_mem_map]
  rw [unloadDevice_eq, NodeMap.forLoop_keeping_iff, foldlM_unload, List.nil_append, hnodes,
    NodeMap.length_ofEntries, ← hports]
  constructor
  · rintro ⟨hlen, hm, hall, hr⟩
    exact ⟨hlen, hm, fun n hn => (hall n hn).2, hr⟩
  · rintro ⟨hlen, hm, hall, hr⟩
    exact ⟨hlen, hm, fun n hn => ⟨Nat.zero_lt_of_lt hlen, hall n hn⟩, hr⟩

theorem unloadDevices_eq_ok {active left : ActiveDevices} {fuel : Nat}
    {deleted : List (Int32 × List PortState)} :
    active.unloadDevices fuel = .ok (left, deleted) ↔ active.toList.length < fuel ∧
      (∀ p ∈ active.toList, p.2.ports.toList = []) ∧ left = ∅ ∧
        deleted = active.toList.map fun p => (p.1, []) := by
  constructor
  · intro h
    rw [ActiveDevices.unloadDevices] at h
    cases hr : (NodeMap.ofEntries active.toList).forLoop (ActiveDevices.unloadDevice fuel) fuel
        (NodeMap.ofEntries active.toList).start [] with
    | error e =>
        dsimp only at h
        rw [hr] at h
        cases h
    | ok r =>
        obtain ⟨hlen, -, hall, hdeleted⟩ := unloadLoop_eq_ok.mp hr
        dsimp only at h
        rw [hr] at h
        cases h
        exact ⟨hlen, hall, rfl, hdeleted⟩
  · rintro ⟨hlen, hall, rfl, rfl⟩
    have hr := (unloadLoop_eq_ok (r := (NodeMap.ofEntries active.toList, _))).mpr ⟨hlen, rfl, hall, rfl⟩
    rw [ActiveDevices.unloadDevices]
    show (NodeMap.forLoop _ fuel _ _ []).bind _ = _
    rw [hr]
    rfl

/-- Each of the registered states must be without ports. -/
theorem unloadsCleanly_iff {active : ActiveDevices} : active.UnloadsCleanly ↔
    ∀ (deviceId : Int32) (d : DeviceState), active[deviceId]? = some d → d.ports.toList = [] := by
  constructor
  · rintro ⟨fuel, deleted, h, -⟩ deviceId d hd
    exact (unloadDevices_eq_ok.mp h).2.1 (deviceId, d)
      (Std.ExtTreeMap.mem_toList_iff_getElem?_eq_some.mpr hd)
  · intro h
    have hports : ∀ p ∈ active.toList, p.2.ports.toList = [] := fun p hp =>
      h p.1 p.2 (Std.ExtTreeMap.mem_toList_iff_getElem?_eq_some.mp hp)
    refine ⟨active.toList.length + 1, active.toList.map fun p => (p.1, []),
      unloadDevices_eq_ok.mpr ⟨Nat.lt_succ_self _, hports, rfl, rfl⟩, ?_⟩
    rw [List.forall₂_map_right_iff, List.forall₂_same]
    intro p hp
    refine ⟨rfl, ?_⟩
    rw [DeviceState.TornDown, hports p hp]
    exact .nil

theorem foldlM_delete (nodes : List (Node Int32 Port)) (s : List Port) :
    nodes.foldlM (fun deleted n => Except.ok (deleted ++ [n.value])) s =
      (.ok (s ++ nodes.map Node.value) : Except IteratorFault (List Port)) := by
  induction nodes generalizing s with
  | nil =>
      rw [List.map_nil, List.append_nil]
      rfl
  | cons n nodes ih =>
      rw [List.foldlM_cons, List.map_cons]
      show nodes.foldlM _ (s ++ [n.value]) = _
      rw [ih, List.append_assoc]
      rfl

/-- The destructor of the specifications does end, with each port deleted once. -/
theorem specifications_destroyed (t : Specifications) :
    ∃ fuel, t.destroy fuel = .ok (∅, t.ports.toList.map Prod.snd) := by
  refine ⟨t.ports.toList.length + 1, ?_⟩
  have hloop := (NodeMap.forLoop_keeping_iff (m := NodeMap.ofEntries t.ports.toList)
    (r := (_, t.ports.toList.map Prod.snd)) fun deleted n => .ok (deleted ++ [n.value])).mpr
    ⟨(NodeMap.length_ofEntries t.ports.toList).trans_lt (Nat.lt_succ_self _), rfl, by
      rw [foldlM_delete, NodeMap.map_value_ofEntries, List.nil_append]⟩
  rw [Specifications.destroy]
  show (NodeMap.forLoop _ _ _ _ []).bind _ = _
  rw [hloop]
  rfl

/-! ## 5. Tearing down -/

/-- The destructor, and with it `disconnect` and `unload_devices`, tears the states down exactly where
    none of those it deletes has a port. -/
theorem teardown_exact (d : DeviceState) (active : ActiveDevices) (deviceId : Int32) :
    (d.DestroysCleanly ↔ d.ports = ∅) ∧
    (active.DisconnectsCleanly deviceId ↔ ∀ e, active[deviceId]? = some e → e.ports = ∅) ∧
    (active.UnloadsCleanly ↔ ∀ (i : Int32) (e : DeviceState), active[i]? = some e → e.ports = ∅) := by
  simp only [← Std.ExtTreeMap.toList_eq_nil_iff]
  exact ⟨destroysCleanly_iff, disconnectsCleanly_iff, unloadsCleanly_iff⟩

/-- A device state with a port is not torn down. -/
theorem not_destroys_port : ¬ ∀ d : DeviceState, d.DestroysCleanly := by
  intro h
  have hports := destroysCleanly_iff.mp
    (h ⟨1, false, (∅ : Std.ExtTreeMap Int32 PortState).insert 0 ⟨0, true, true, -1⟩, [], 0⟩)
  rw [Std.ExtTreeMap.toList_eq_nil_iff] at hports
  exact absurd hports Std.ExtTreeMap.insert_ne_empty

end Domoio
