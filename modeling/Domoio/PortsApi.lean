import Domoio.Lib.Machine
import Domoio.Httpd
import Domoio.Rows

/-
  File:      Domoio/PortsApi.lean
  Subject:   The ports API: creating and updating the ports of a stored device.

  A POST puts a port in under the id its body names. A PUT changes the port it finds in place, its
  id included, under the key it had; the next load keys the ports by their own ids again. Neither
  looks whether the id is in use. The database carries out every statement (`carriedOut`).
  `portsApi_exact`: a request keeps the ports apart exactly when the id it brings is free, or the
  one the PUT is for.
-/

namespace Domoio

open Lib

namespace Httpd

/-! ## 1. The ports of a stored device -/

/-- The ports of a device as a load finds them. -/
def portsOf (c : Cajun) (x : Int32) (table : Table) : Option Ports :=
  match Device.model.loadFromDb c table x {} with
  | .ok (device, true) => some device.specifications.ports
  | _ => none

/-- Specifications with other ports. -/
abbrev withPorts (specs : Specifications) (ports : Ports) : Specifications :=
  { specs with ports := ports }

/-- The row of device `x` is there, and its specifications are these. -/
structure Serves (c : Cajun) (x : Int32) (table : Table) (specs : Specifications) : Prop where
  id_ne : x ≠ 0
  row : ∃ row, table.rows[x]? = some row ∧
    Specifications.model.fromJson c (row "specifications") {} = .ok specs
  storable : specs.Storable

variable {c : Cajun} {x id : Int32} {table : Table} {specs : Specifications} {row : Row}
  {env : Registry} {request : Request} {port : Port}

theorem Serves.portsOf (h : Serves c x table specs) : portsOf c x table = some specs.ports := by
  obtain ⟨row, hr, hs⟩ := h.row
  simp only [Httpd.portsOf, device_loadFromDb hr hs]
  rfl

variable (id) in
/-- A port is found under its id. -/
theorem getPort_eq {d : Device} (h : OrderedMap.OwnKeyed Port.id d.specifications.ports) :
    d.getPort id = (d.specifications.ports[id]?).map fun p => (id, p) := by
  cases hf : d.getPort id with
  | none =>
      cases hp : d.specifications.ports[id]? with
      | none => rfl
      | some p =>
          have hmem := Std.ExtTreeMap.mem_toList_iff_getElem?_eq_some.mpr hp
          have hne := List.find?_eq_none.mp hf (id, p) hmem
          exact absurd (decide_eq_true (h id p hp)) hne
  | some r =>
      obtain ⟨k, p⟩ := r
      have hpid : p.id = id := by simpa using List.find?_some hf
      have hp := Std.ExtTreeMap.mem_toList_iff_getElem?_eq_some.mp (List.mem_of_find?_eq_some hf)
      have hk : k = id := (h k p hp).symm.trans hpid
      rw [← hk, hp]
      rfl

/-- Saving the device with other specifications: the next load keys the ports by their own ids. -/
theorem Serves.save {t : Specifications} {d : Device} (h : Serves c x table specs)
    (hr : table.rows[x]? = some row) (hid : d.id = x) (hd : d.specifications = t) (ht : t.Plain)
    (hc : c.Reproduces (Specifications.model.toJsonObject env t)) :
    Serves c x (Device.model.save c env table d).1
      (withPorts t (OrderedMap.rekey Port.id t.ports)) where
  id_ne := h.id_ne
  row := by
    subst hid hd
    rw [device_save h.id_ne hr]
    refine ⟨_, Std.ExtTreeMap.getElem?_insert_self, ?_⟩
    -- the column holds the text, which has no NUL, and the text is read back
    have hcolumn : updatedRow row d (Specifications.model.toJson c env d.specifications)
        "specifications" = Specifications.model.toJson c env d.specifications := by
      simp [updatedRow, cString_of_nulFree (nulFree_specificationsToJson c d.specifications)]
    rw [hcolumn]
    exact (ModelClass.fromJson_of_read _ hc _).trans (specificationsFromJson_toJson ht {})
  storable := by
    refine ⟨⟨ht.serial, ht.manufacturerRaw, ht.modelRaw, ht.description, ?_⟩,
      OrderedMap.ownKeyed_rekey t.ports⟩
    intro k p hp
    obtain ⟨-, k', hk'⟩ := OrderedMap.mem_of_getElem?_rekey hp
    exact ht.names k' p hk'

/-! ## 2. A request -/

/-- The device a request saves, if it gets so far. -/
def savedDevice (request : Request) (port : Port) (device : Device) : Option Device :=
  match request.method with
  | .post => some (device.addPort port)
  | .put => (device.getPort (request.paramInt "id")).map fun p => device.putPort p.1 port
  | .get | .options | .delete | .other => none

/-- A POST or PUT to the ports of device `x`. Its body is a port's document, and the specifications
    it saves are a document the JSON library reads back as it wrote it. -/
structure WellFormed (c : Cajun) (x : Int32) (table : Table) (request : Request) : Prop where
  device : request.paramInt "device_id" = x
  method : request.method = .post ∨ request.method = .put
  body : ∃ doc, c.read request.postDataRaw = .ok doc ∧ NulFree (portOfJson doc).name
  reproduces : ∀ doc device d, c.read request.postDataRaw = .ok doc →
    Device.model.loadFromDb c table x {} = .ok (device, true) →
    savedDevice request (portOfJson doc) device = some d →
    c.Reproduces (Specifications.model.toJsonObject (fun _ => none) d.specifications)

variable (env) in
/-- What the action comes to behind the load, for a body that is read. -/
theorem portsLoaded_eq (table : Table) {doc : Object} (device : Device)
    (hm : request.method = .post ∨ request.method = .put)
    (hread : c.read request.postDataRaw = .ok doc) :
    actions.portsLoaded c env table request device =
      .ok ((savedDevice request (portOfJson doc) device).elim { table } fun d =>
        { table := (Device.model.save c env table d).1
          responseData := some (Port.model.toJson c env (portOfJson doc)) }) := by
  have hport : ∀ p : Port, Port.model.fromJson c request.postDataRaw p = .ok (portOfJson doc) :=
    fun p => (ModelClass.fromJson_of_read _ hread p).trans (portFromJson_eq doc p)
  rcases hm with hm | hm
  · simp [actions.portsLoaded, actions.portsLoadedWith, carriedOut, hm, hport, savedDevice, bind,
      Except.bind, pure, Except.pure]
  · cases hf : device.getPort (request.paramInt "id") with
    | none =>
        simp [actions.portsLoaded, actions.portsLoadedWith, hm, hf, savedDevice, pure, Except.pure]
    | some p =>
        simp [actions.portsLoaded, actions.portsLoadedWith, carriedOut, hm, hf, hport, savedDevice, bind,
          Except.bind, pure, Except.pure]

variable (env) in
/-- What the action comes to for a stored device and a body that is read. -/
theorem ports_eq {doc : Object} {device : Device} (hx : request.paramInt "device_id" = x)
    (hm : request.method = .post ∨ request.method = .put)
    (hload : Device.model.loadFromDb c table x {} = .ok (device, true))
    (hread : c.read request.postDataRaw = .ok doc) :
    actions.ports c env table request =
      .ok ((savedDevice request (portOfJson doc) device).elim { table } fun d =>
        { table := (Device.model.save c env table d).1
          responseData := some (Port.model.toJson c env (portOfJson doc)) }) := by
  have hfound : (carriedOut Device.model).load c table x {} = .ok (device, true) := hload
  rw [actions.ports, actions.portsWith, hx, hfound]
  exact portsLoaded_eq env table device hm hread

/-- What an answered request is to have done to the ports: a POST has added one, a PUT has put one in
    the place of the one its URL names. -/
def PortsKept (request : Request) (port : Port) (before after : Ports) : Prop :=
  if request.method = .post then
    after = before.insert port.id port ∧ after.size = before.size + 1
  else
    (before[request.paramInt "id"]?).isSome ∧
      after = (before.erase (request.paramInt "id")).insert port.id port ∧ after.size = before.size

/-- A request keeps the ports of device `x`: after a reload each is found under its own id, an answered
    request did what it was for, and another one nothing. -/
def KeepsPorts (c : Cajun) (x : Int32) (table : Table) (a : Registry × Request) : Prop :=
  ∃ reply doc before after, actions.ports c a.1 table a.2 = .ok reply ∧
    c.read a.2.postDataRaw = .ok doc ∧ portsOf c x table = some before ∧
    portsOf c x reply.table = some after ∧ OrderedMap.OwnKeyed Port.id after ∧
    if reply.responseData.isSome then PortsKept a.2 (portOfJson doc) before after
    else after = before

/-- The id a request brings is free. It may also be the one the PUT is for, and a PUT for a port that
    is not there may bring any. -/
def FreeId (c : Cajun) (x : Int32) (table : Table) (a : Registry × Request) : Prop :=
  ∀ before doc, portsOf c x table = some before → c.read a.2.postDataRaw = .ok doc →
    before[(portOfJson doc).id]? = none ∨ a.2.method = .put ∧
      ((portOfJson doc).id = a.2.paramInt "id" ∨ before[a.2.paramInt "id"]? = none)

/-- The requests to the ports of device `x`, one after the other. At each of them other devices may
    be live. -/
def portsApi (c : Cajun) (x : Int32) : Machine Table (Registry × Request) JsonException where
  enabled table a := WellFormed c x table a.2
  step table a := (actions.ports c a.1 table a.2).map Reply.table

section Request

variable {doc : Object} {a : Registry × Request}

theorem Serves.load (h : Serves c x table specs) : ∃ row, table.rows[x]? = some row ∧
    Device.model.loadFromDb c table x {} = .ok (deviceOfRow x row specs, true) := by
  obtain ⟨row, hr, hs⟩ := h.row
  exact ⟨row, hr, device_loadFromDb hr hs⟩

/-- A request that saves nothing. -/
theorem Serves.unsaved (h : Serves c x table specs) (hw : WellFormed c x table a.2)
    (hread : c.read a.2.postDataRaw = .ok doc)
    (hput : a.2.method = .put) (hnone : specs.ports[a.2.paramInt "id"]? = none) :
    (portsApi c x).step table a = .ok table ∧ KeepsPorts c x table a := by
  obtain ⟨row, hr, hload⟩ := h.load
  have hkeyed : OrderedMap.OwnKeyed Port.id (deviceOfRow x row specs).specifications.ports :=
    h.storable.keyed
  have hsaved : savedDevice a.2 (portOfJson doc) (deviceOfRow x row specs) = none := by
    have hfind := getPort_eq (a.2.paramInt "id") hkeyed
    have hports : (deviceOfRow x row specs).specifications.ports[a.2.paramInt "id"]? = none := hnone
    rw [hports] at hfind
    simp [savedDevice, hput, hfind]
  have hreply := ports_eq a.1 hw.device hw.method hload hread
  rw [hsaved] at hreply
  refine ⟨?_, { table }, doc, specs.ports, specs.ports, hreply, hread, h.portsOf, h.portsOf,
    h.storable.keyed, ?_⟩
  · simp only [portsApi, hreply]
    rfl
  · rw [if_neg (by simp)]

/-- A request that saves the device with the port under `key`. -/
theorem Serves.saved (h : Serves c x table specs) (hw : WellFormed c x table a.2) (key : Int32)
    (hread : c.read a.2.postDataRaw = .ok doc)
    (hsaved : ∀ row, savedDevice a.2 (portOfJson doc) (deviceOfRow x row specs) =
      some ((deviceOfRow x row specs).putPort key (portOfJson doc))) :
    ∃ reply, actions.ports c a.1 table a.2 = .ok reply ∧ reply.responseData.isSome ∧
      Serves c x reply.table (withPorts specs
        (OrderedMap.rekey Port.id (specs.ports.insert key (portOfJson doc)))) := by
  obtain ⟨row, hr, hload⟩ := h.load
  obtain ⟨doc', hread', hname⟩ := hw.body
  have hdoc : doc' = doc := Except.ok.inj (hread'.symm.trans hread)
  subst hdoc
  have hreply := ports_eq a.1 hw.device hw.method hload hread
  rw [hsaved row] at hreply
  refine ⟨_, hreply, rfl, ?_⟩
  have hplain : (withPorts specs (specs.ports.insert key (portOfJson doc'))).Plain :=
    ⟨h.storable.serial, h.storable.manufacturerRaw, h.storable.modelRaw, h.storable.description,
      h.storable.names.insert hname key⟩
  exact h.save hr rfl rfl hplain (hw.reproduces doc' _ _ hread hload (hsaved row))

/-- What a POST does: the port is added, or takes the place of one. -/
theorem Serves.post (h : Serves c x table specs) (hw : WellFormed c x table a.2)
    (hread : c.read a.2.postDataRaw = .ok doc) (hpost : a.2.method = .post) :
    ∃ reply, actions.ports c a.1 table a.2 = .ok reply ∧ reply.responseData.isSome ∧
      Serves c x reply.table (withPorts specs (specs.ports.insert (portOfJson doc).id
        (portOfJson doc))) := by
  obtain ⟨reply, hreply, hresponse, hserves⟩ := h.saved hw (portOfJson doc).id hread
    fun row => by simp only [savedDevice, hpost]; rfl
  rw [OrderedMap.rekey_of_ownKeyed (h.storable.keyed.insert (portOfJson doc))] at hserves
  exact ⟨reply, hreply, hresponse, hserves⟩

theorem Serves.post_iff (h : Serves c x table specs) (hw : WellFormed c x table a.2)
    (hread : c.read a.2.postDataRaw = .ok doc) (hpost : a.2.method = .post) :
    KeepsPorts c x table a ↔ FreeId c x table a := by
  obtain ⟨reply, hreply, hresponse, hserves⟩ := h.post hw hread hpost
  have hfree : FreeId c x table a ↔ specs.ports[(portOfJson doc).id]? = none := by
    simp [FreeId, h.portsOf, hread, hpost]
  rw [hfree, ← OrderedMap.size_insert_eq_succ_iff (v := portOfJson doc)]
  constructor
  · intro hkeeps
    obtain ⟨reply', doc', before, after, hreply', hread', hbefore, hafter, -, hkept⟩ := hkeeps
    rw [hreply] at hreply'
    rw [hread] at hread'
    cases hreply'
    cases hread'
    rw [h.portsOf] at hbefore
    cases hbefore
    rw [if_pos hresponse, PortsKept, if_pos hpost] at hkept
    rw [← hkept.1]
    exact hkept.2
  · intro hsize
    refine ⟨reply, doc, specs.ports, _, hreply, hread, h.portsOf, hserves.portsOf,
      hserves.storable.keyed, ?_⟩
    rw [if_pos hresponse, PortsKept, if_pos hpost]
    exact ⟨rfl, hsize⟩

/-- What a PUT does where the port is: it is changed under the key it has. -/
theorem Serves.put (h : Serves c x table specs) (hw : WellFormed c x table a.2) {old : Port}
    (hread : c.read a.2.postDataRaw = .ok doc) (hput : a.2.method = .put)
    (hold : specs.ports[a.2.paramInt "id"]? = some old) :
    ∃ reply, actions.ports c a.1 table a.2 = .ok reply ∧ reply.responseData.isSome ∧
      Serves c x reply.table (withPorts specs (OrderedMap.rekey Port.id
        (specs.ports.insert (a.2.paramInt "id") (portOfJson doc)))) := by
  refine h.saved hw (a.2.paramInt "id") hread fun row => ?_
  have hkeyed : OrderedMap.OwnKeyed Port.id (deviceOfRow x row specs).specifications.ports :=
    h.storable.keyed
  have hports : (deviceOfRow x row specs).specifications.ports[a.2.paramInt "id"]? = some old := hold
  have hfind := getPort_eq (a.2.paramInt "id") hkeyed
  rw [hports] at hfind
  simp [savedDevice, hput, hfind]

theorem Serves.put_iff (h : Serves c x table specs) (hw : WellFormed c x table a.2) {old : Port}
    (hread : c.read a.2.postDataRaw = .ok doc) (hput : a.2.method = .put)
    (hold : specs.ports[a.2.paramInt "id"]? = some old) :
    KeepsPorts c x table a ↔ FreeId c x table a := by
  obtain ⟨reply, hreply, hresponse, hserves⟩ := h.put hw hread hput hold
  have hfree : FreeId c x table a ↔
      (portOfJson doc).id = a.2.paramInt "id" ∨ specs.ports[(portOfJson doc).id]? = none := by
    have hthere : specs.ports[a.2.paramInt "id"]? ≠ none := by simp [hold]
    constructor
    · intro hfree
      rcases hfree specs.ports doc h.portsOf hread with hid | ⟨-, hid | hid⟩
      · exact Or.inr hid
      · exact Or.inl hid
      · exact absurd hid hthere
    · intro hid before doc' hbefore hread'
      rw [h.portsOf] at hbefore
      rw [hread] at hread'
      cases hbefore
      cases hread'
      rcases hid with hid | hid
      · exact Or.inr ⟨hput, Or.inl hid⟩
      · exact Or.inl hid
  have hnotPost : ¬ a.2.method = .post := by simp [hput]
  rw [hfree]
  constructor
  · intro hkeeps
    obtain ⟨reply', doc', before, after, hreply', hread', hbefore, hafter, -, hkept⟩ := hkeeps
    rw [hreply] at hreply'
    rw [hread] at hread'
    cases hreply'
    cases hread'
    rw [h.portsOf] at hbefore
    cases hbefore
    rw [if_pos hresponse, PortsKept, if_neg hnotPost] at hkept
    obtain ⟨-, rfl, hsize⟩ := hkept
    exact (OrderedMap.size_insert_erase_eq_iff hold).mp hsize
  · intro hid
    have hafter : OrderedMap.rekey Port.id
        (specs.ports.insert (a.2.paramInt "id") (portOfJson doc)) =
          (specs.ports.erase (a.2.paramInt "id")).insert (portOfJson doc).id (portOfJson doc) := by
      rcases hid with hid | hid
      · rw [← hid, OrderedMap.rekey_of_ownKeyed (h.storable.keyed.insert (portOfJson doc))]
        exact OrderedMap.insert_erase_self.symm
      · exact OrderedMap.rekey_insert_free h.storable.keyed hid
    refine ⟨reply, doc, specs.ports, _, hreply, hread, h.portsOf, hserves.portsOf,
      hserves.storable.keyed, ?_⟩
    rw [if_pos hresponse, PortsKept, if_neg hnotPost]
    refine ⟨by rw [hold]; rfl, hafter, ?_⟩
    show (OrderedMap.rekey Port.id _).size = _
    rw [hafter]
    exact (OrderedMap.size_insert_erase_eq_iff hold).mpr hid

/-- One request. -/
theorem Serves.step (h : Serves c x table specs) {table' : Table}
    (hw : (portsApi c x).enabled table a) (hs : (portsApi c x).step table a = .ok table') :
    (∃ specs', Serves c x table' specs') ∧ (KeepsPorts c x table a ↔ FreeId c x table a) := by
  have hw : WellFormed c x table a.2 := hw
  obtain ⟨doc, hread, -⟩ := hw.body
  have hlater : ∀ reply specs', actions.ports c a.1 table a.2 = .ok reply →
      Serves c x reply.table specs' → ∃ specs', Serves c x table' specs' := by
    intro reply specs' hreply hserves
    simp only [portsApi, hreply] at hs
    cases hs
    exact ⟨specs', hserves⟩
  rcases hw.method with hpost | hput
  · obtain ⟨reply, hreply, -, hserves⟩ := h.post hw hread hpost
    exact ⟨hlater reply _ hreply hserves, h.post_iff hw hread hpost⟩
  · cases hold : specs.ports[a.2.paramInt "id"]? with
    | none =>
        obtain ⟨hstep, hkeeps⟩ := h.unsaved hw hread hput hold
        rw [hs] at hstep
        cases hstep
        refine ⟨⟨specs, h⟩, iff_of_true hkeeps ?_⟩
        intro before doc' hbefore _
        rw [h.portsOf] at hbefore
        cases hbefore
        exact Or.inr ⟨hput, Or.inr hold⟩
    | some old =>
        obtain ⟨reply, hreply, -, hserves⟩ := h.put hw hread hput hold
        exact ⟨hlater reply _ hreply hserves, h.put_iff hw hread hput hold⟩

end Request

/-! ## 3. Runs -/

/-- A port with the id of the heater. -/
def lamp : Port := { name := ascii "lamp", digital := true, output := true }

def lampDoc : Object := Port.model.toJsonObject (fun _ => none) lamp

/-- What the thermostat is saved as when the lamp is posted to it. -/
def lampSpecificationsDoc : Object :=
  Specifications.model.toJsonObject (fun _ => none) (withPorts thermostat (thermostat.ports.insert 0 lamp))

/-- A reader for the documents of the run. -/
def lampCajun : Cajun := Cajun.knowing [thermostatDoc, lampDoc, lampSpecificationsDoc]

def lampTable : Table where
  rows := (∅ : Std.ExtTreeMap Int32 Row).insert 7 fun column =>
    if column = "specifications" then lampCajun.write thermostatDoc else []
  nextId := 8

def lampRequest : Request where
  method := .post
  params name := if name = "device_id" then ascii "7" else []
  postDataRaw := lampCajun.write lampDoc

set_option maxRecDepth 2000 in
theorem lampCajun_reproduces :
    lampCajun.Reproduces thermostatDoc ∧ lampCajun.Reproduces lampDoc ∧
      lampCajun.Reproduces lampSpecificationsDoc :=
  ⟨Cajun.knowing_reproduces [] _ (by simp), Cajun.knowing_reproduces [thermostatDoc] _ (by decide),
    Cajun.knowing_reproduces [thermostatDoc, lampDoc] [] (by decide)⟩

theorem lampTable_serves : Serves lampCajun 7 lampTable thermostat where
  id_ne := by decide
  row := by
    refine ⟨_, Std.ExtTreeMap.getElem?_insert_self, ?_⟩
    refine (ModelClass.fromJson_of_read _ lampCajun_reproduces.1 _).trans ?_
    exact specifications_reread thermostat_storable fun k hk => by simp at hk
  storable := thermostat_storable

theorem lampDoc_port : portOfJson lampDoc = lamp := portOfJson_toJson (by decide)

theorem lampRequest_wellFormed : WellFormed lampCajun 7 lampTable lampRequest where
  device := by decide
  method := Or.inl rfl
  body := by
    refine ⟨lampDoc, lampCajun_reproduces.2.1, ?_⟩
    rw [lampDoc_port]
    decide
  reproduces := by
    intro doc device d hread hload hsaved
    obtain ⟨row, -, hload'⟩ := lampTable_serves.load
    have hread' : lampCajun.read lampRequest.postDataRaw = .ok lampDoc := lampCajun_reproduces.2.1
    rw [hread] at hread'
    rw [hload] at hload'
    cases hread'
    cases hload'
    rw [lampDoc_port] at hsaved
    cases hsaved
    exact lampCajun_reproduces.2.2

/-- The run of the one request. -/
theorem lampRun : ∃ table, Machine.Run (portsApi lampCajun 7) lampTable
    [(lampTable, fun _ => none, lampRequest)] table := by
  obtain ⟨reply, hreply, -⟩ := lampTable_serves.post (a := (fun _ => none, lampRequest))
    lampRequest_wellFormed lampCajun_reproduces.2.1 rfl
  refine ⟨reply.table, Machine.Run.start.step lampRequest_wellFormed ?_⟩
  simp only [portsApi, hreply]
  rfl

end Httpd

end Domoio
