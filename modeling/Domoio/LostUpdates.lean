import Domoio.Lib.Locality
import Domoio.Lib.ReadModifyWrite
import Domoio.PortsApi

/-
  File:      Domoio/LostUpdates.lean
  Subject:   Two requests to the ports of one device, handled by two threads.

  Each handler loads the row of the device and saves the whole specifications again; nothing is
  locked in between, and the database carries out every statement (`carriedOut`). The handlers
  refine two unguarded read-modify-write clients (`handlers_rmw`). `handlers_exact`: the saved ports
  show what both requests ask for exactly when each could do its own part and a request that
  overtakes the other asks for nothing new.
-/

namespace Domoio

open Lib

namespace Httpd

/-! ## 1. Handlers -/

/-- How far the handler of a request is. -/
inductive Phase where
  | waiting
  | loaded (device : Device)
  | answered (success : Bool)

/-- The table of the devices and the two handlers. -/
structure Handling where
  table : Table
  phase : Bool → Phase

/-- The database steps of a handler. When one saves, some devices are live. -/
inductive HandlerStep where
  | load (i : Bool)
  | save (i : Bool) (env : Registry)

/-- What the request saves is a document the JSON library reads back as it wrote it. -/
def SavesDocument (c : Cajun) (request : Request) (device : Device) : Prop :=
  ∀ doc d, c.read request.postDataRaw = .ok doc →
    savedDevice request (portOfJson doc) device = some d →
    c.Reproduces (Specifications.model.toJsonObject (fun _ => none) d.specifications)

namespace Handling

def begin (table : Table) : Handling := ⟨table, fun _ => .waiting⟩

def enabled (c : Cajun) (requests : Bool → Request) (s : Handling) : HandlerStep → Prop
  | .load i => s.phase i = .waiting
  | .save i _ => ∃ device, s.phase i = .loaded device ∧ SavesDocument c (requests i) device

def step (c : Cajun) (requests : Bool → Request) (s : Handling) :
    HandlerStep → Except JsonException Handling
  | .load i => do
      let (device, found) ←
        Device.model.loadFromDb c s.table ((requests i).paramInt "device_id") {}
      let phase := if found then .loaded device else .answered false
      return ⟨s.table, Function.update s.phase i phase⟩
  | .save i env =>
      match s.phase i with
      | .loaded device => do
          let reply ← actions.portsLoaded c env s.table (requests i) device
          let phase := .answered reply.responseData.isSome
          return ⟨reply.table, Function.update s.phase i phase⟩
      | .waiting | .answered _ => return s

end Handling

/-- The two handlers, their steps in any order. -/
def handlers (c : Cajun) (requests : Bool → Request) :
    Machine Handling HandlerStep JsonException :=
  ⟨Handling.enabled c requests, Handling.step c requests⟩

/-- In this run request `i` saves while the other one has loaded and not saved. -/
def SavesFirst (tr : List (Handling × HandlerStep)) (i : Bool) : Prop :=
  ∃ p ∈ tr, (∃ env, p.2 = .save i env) ∧ ∃ device, p.1.phase (!i) = .loaded device

/-! ## 2. What a request makes of the ports -/

/-- A POST or a PUT to the ports of device `x`, and the port its body is read as. A PUT is for a
    port of the device. -/
structure Edits (c : Cajun) (x : Int32) (ports : Ports) (request : Request) (port : Port) :
    Prop where
  device : request.paramInt "device_id" = x
  method : request.method = .post ∨ request.method = .put
  body : ∃ doc, c.read request.postDataRaw = .ok doc ∧ portOfJson doc = port
  plain : NulFree port.name
  there : request.method = .put → (ports[request.paramInt "id"]?).isSome

/-- The ids a request is about: the one in its body, and the one in the URL of a PUT. -/
def touched (request : Request) (port : Port) : Set Int32 :=
  fun id => id = port.id ∨ request.method = .put ∧ id = request.paramInt "id"

/-- What a request asks for. -/
def asked (request : Request) (port : Port) (ports : Ports) : Ports :=
  if request.method = .put then (ports.erase (request.paramInt "id")).insert port.id port
  else ports.insert port.id port

/-- What a load finds when a request has saved the ports it had loaded. -/
def saved (request : Request) (port : Port) (ports : Ports) : Ports :=
  if request.method = .put then
    OrderedMap.rekey Port.id (ports.insert (request.paramInt "id") port)
  else ports.insert port.id port

/-- The request does what it asks for: the id a PUT brings is not used, behind the one in its URL,
    for another port. -/
def Lands (request : Request) (port : Port) (ports : Ports) : Prop :=
  request.method = .put → compare (request.paramInt "id") port.id = .lt →
    ports[port.id]? = none ∨ ports[port.id]? = some port

/-- The request asks for nothing new: the port is there as its body has it. -/
def AsksNothing (request : Request) (port : Port) (ports : Ports) : Prop :=
  ports[port.id]? = some port ∧ (request.method = .put → request.paramInt "id" = port.id)

section Request

variable {c : Cajun} {x : Int32} {ports : Ports} {request : Request} {port : Port}

theorem asked_local (request : Request) (port : Port) :
    Local (OrderedMap.OwnKeyed Port.id) (touched request port) (asked request port) := by
  have hinsert : Local (OrderedMap.OwnKeyed Port.id) (touched request port)
      fun ports : Ports => ports.insert port.id port := Local.insert port (Or.inl rfl)
  unfold asked
  by_cases hput : request.method = .put
  · simp only [if_pos hput]
    exact (Local.erase (request.paramInt "id") (Or.inr ⟨hput, rfl⟩)).comp hinsert
  · simp only [if_neg hput]
    exact hinsert

theorem saved_local (request : Request) (port : Port) :
    Local (OrderedMap.OwnKeyed Port.id) (touched request port) (saved request port) := by
  unfold saved
  by_cases hput : request.method = .put
  · simp only [if_pos hput]
    exact Local.rekeyInsert (request.paramInt "id") port (Or.inr ⟨hput, rfl⟩) (Or.inl rfl)
  · simp only [if_neg hput]
    exact Local.insert port (Or.inl rfl)

theorem saved_eq_asked_iff (h : OrderedMap.OwnKeyed Port.id ports) :
    saved request port ports = asked request port ports ↔ Lands request port ports := by
  unfold saved asked Lands
  by_cases hput : request.method = .put
  · simp only [if_pos hput]
    rw [OrderedMap.rekey_insert_eq_iff h]
    exact ⟨fun hlast _ => hlast, fun hlands => hlands hput⟩
  · simp only [if_neg hput]
    exact iff_of_true trivial fun h => absurd h hput

theorem asked_eq_self_iff (he : Edits c x ports request port) :
    asked request port ports = ports ↔ AsksNothing request port ports := by
  unfold asked AsksNothing
  by_cases hput : request.method = .put
  · simp only [if_pos hput]
    constructor
    · intro heq
      have hown : ports[port.id]? = some port := by
        rw [← heq]
        exact Std.ExtTreeMap.getElem?_insert_self
      refine ⟨hown, fun _ => ?_⟩
      by_contra hne
      have hthere := he.there hput
      rw [← heq, OrderedMap.getElem?_insert_ne hne, Std.ExtTreeMap.getElem?_erase_self] at hthere
      cases hthere
    · intro hn
      rw [hn.2 hput, OrderedMap.insert_erase_self]
      exact OrderedMap.insert_self hn.1
  · simp only [if_neg hput]
    constructor
    · intro heq
      refine ⟨?_, fun h => absurd h hput⟩
      rw [← heq]
      exact Std.ExtTreeMap.getElem?_insert_self
    · intro hn
      exact OrderedMap.insert_self hn.1

theorem AsksNothing.lands (h : AsksNothing request port ports) : Lands request port ports :=
  fun _ _ => Or.inr h.1

end Request

/-! ## 3. The handlers refine two read-modify-write clients -/

def Phase.progress : Phase → Progress Ports
  | .waiting => .waiting
  | .loaded device => .loaded device.specifications.ports
  | .answered _ => .stored

/-- The ports in the row, and the ports in the handlers' hands. -/
def Handling.shared (c : Cajun) (x : Int32) (s : Handling) : Shared Ports where
  value := (portsOf c x s.table).getD ∅
  progress := Phase.progress ∘ s.phase

def HandlerStep.move : HandlerStep → Move
  | .load i => .load i
  | .save i _ => .store i

/-- The ports a request that has not been answered is for are in these. -/
def Finds (s : Handling) (requests : Bool → Request) (ports : Ports) : Prop :=
  ∀ i, (s.phase i).progress ≠ .stored → (requests i).method = .put →
    (ports[(requests i).paramInt "id"]?).isSome

/-- The invariant of the handlers: the row serves some ports, every handler has loaded such, and
    each finds the port it is for. -/
structure Handled (c : Cajun) (x : Int32) (requests : Bool → Request) (specs : Specifications)
    (s : Handling) : Prop where
  row : ∃ ports, Serves c x s.table (withPorts specs ports) ∧ Finds s requests ports
  copies : ∀ i device, s.phase i = .loaded device → ∃ row ports,
    device = deviceOfRow x row (withPorts specs ports) ∧ (withPorts specs ports).Storable ∧
      Finds s requests ports

section Simulation

variable {c : Cajun} {x : Int32} {requests : Bool → Request} {port : Bool → Port}
  {specs : Specifications} {s s' : Handling} {a : HandlerStep} {i : Bool} {env : Registry}

theorem shared_value {ports : Ports} (h : Serves c x s.table (withPorts specs ports)) :
    (s.shared c x).value = ports := by
  show (portsOf c x s.table).getD ∅ = ports
  rw [h.portsOf]
  rfl

/-- A handler that moves on leaves less to be found. -/
theorem Finds.update {ports : Ports} (h : Finds s requests ports) {table : Table} {p : Phase}
    (hp : p.progress ≠ .stored → (s.phase i).progress ≠ .stored) :
    Finds ⟨table, Function.update s.phase i p⟩ requests ports := by
  intro j hj hput
  refine h j ?_ hput
  by_cases hji : j = i
  · subst hji
    simp only [Function.update_self] at hj
    exact hp hj
  · simp only [Function.update_of_ne hji] at hj
    exact hj

/-- The key a request's port is saved under. -/
def savedKey (request : Request) (p : Port) : Int32 :=
  if request.method = .put then request.paramInt "id" else p.id

/-- The device a handler saves. -/
theorem savedDevice_loaded {request : Request} (p : Port) (row : Row)
    (hm : request.method = .post ∨ request.method = .put) (hstorable : specs.Storable)
    (hthere : request.method = .put → (specs.ports[request.paramInt "id"]?).isSome) :
    savedDevice request p (deviceOfRow x row specs) =
      some ((deviceOfRow x row specs).putPort (savedKey request p) p) := by
  rcases hm with hm | hm
  · simp only [savedDevice, savedKey, hm]
    rfl
  · have hkeyed : OrderedMap.OwnKeyed Port.id (deviceOfRow x row specs).specifications.ports :=
      hstorable.keyed
    obtain ⟨old, hold⟩ := Option.isSome_iff_exists.mp (hthere hm)
    have hports : (deviceOfRow x row specs).specifications.ports[request.paramInt "id"]? =
        some old := hold
    have hfind := getPort_eq (request.paramInt "id") hkeyed
    rw [hports] at hfind
    simp [savedDevice, savedKey, hm, hfind]

/-- What a load finds afterwards. -/
theorem saved_eq_rekey {request : Request} {p : Port} {ports : Ports}
    (h : OrderedMap.OwnKeyed Port.id ports) :
    OrderedMap.rekey Port.id (ports.insert (savedKey request p) p) = saved request p ports := by
  unfold saved savedKey
  by_cases hput : request.method = .put
  · rw [if_pos hput, if_pos hput]
  · rw [if_neg hput, if_neg hput]
    exact OrderedMap.rekey_of_ownKeyed (h.insert p)

/-- The step of a load. -/
theorem load_step {specs : Specifications} (h : Serves c x s.table specs)
    (hdevice : (requests i).paramInt "device_id" = x) : ∃ row, s.step c requests (.load i) =
      .ok ⟨s.table, Function.update s.phase i (.loaded (deviceOfRow x row specs))⟩ := by
  obtain ⟨row, -, hload⟩ := h.load
  refine ⟨row, ?_⟩
  simp only [Handling.step, hdevice, hload, bind, Except.bind]
  rfl

/-- The table a handler saves its copy to. -/
def saveTo (c : Cajun) (env : Registry) (table : Table) (request : Request) (p : Port)
    (device : Device) : Table :=
  (Device.model.save c env table (device.putPort (savedKey request p) p)).1

variable (env) in
/-- The step of a save. -/
theorem save_step {row : Row} {ports : Ports}
    (he : Edits c x specs.ports (requests i) (port i))
    (hphase : s.phase i = .loaded (deviceOfRow x row (withPorts specs ports)))
    (hstorable : (withPorts specs ports).Storable)
    (hthere : (requests i).method = .put → (ports[(requests i).paramInt "id"]?).isSome) :
    s.step c requests (.save i env) =
      .ok ⟨saveTo c env s.table (requests i) (port i) (deviceOfRow x row (withPorts specs ports)),
        Function.update s.phase i (.answered true)⟩ := by
  obtain ⟨doc, hread, hport⟩ := he.body
  have hdevice : savedDevice (requests i) (port i) (deviceOfRow x row (withPorts specs ports)) =
      some ((deviceOfRow x row (withPorts specs ports)).putPort (savedKey (requests i) (port i))
        (port i)) := savedDevice_loaded (port i) row he.method hstorable hthere
  have hreply := portsLoaded_eq env s.table (deviceOfRow x row (withPorts specs ports)) he.method
    hread
  rw [hport, hdevice, Option.elim_some] at hreply
  simp only [Handling.step, hphase, hreply, bind, Except.bind]
  rfl

variable (env) in
/-- The row after a save. -/
theorem serves_saveTo {row : Row} {ports : Ports} {table : Table} {specs₀ : Specifications}
    (h : Serves c x table specs₀) (he : Edits c x specs.ports (requests i) (port i))
    (hstorable : (withPorts specs ports).Storable)
    (hthere : (requests i).method = .put → (ports[(requests i).paramInt "id"]?).isSome)
    (hdocument : SavesDocument c (requests i) (deviceOfRow x row (withPorts specs ports))) :
    Serves c x (saveTo c env table (requests i) (port i)
        (deviceOfRow x row (withPorts specs ports)))
      (withPorts specs (saved (requests i) (port i) ports)) := by
  obtain ⟨doc, hread, hport⟩ := he.body
  obtain ⟨row₀, hr, -⟩ := h.load
  have hkeyed : OrderedMap.OwnKeyed Port.id ports := hstorable.keyed
  have hdevice : savedDevice (requests i) (port i) (deviceOfRow x row (withPorts specs ports)) =
      some ((deviceOfRow x row (withPorts specs ports)).putPort (savedKey (requests i) (port i))
        (port i)) := savedDevice_loaded (port i) row he.method hstorable hthere
  rw [← hport] at hdevice
  have hreproduces := hdocument doc _ hread hdevice
  rw [hport] at hreproduces
  rw [← saved_eq_rekey hkeyed]
  exact h.save hr rfl rfl ⟨hstorable.serial, hstorable.manufacturerRaw, hstorable.modelRaw,
    hstorable.description, hstorable.names.insert he.plain _⟩ hreproduces

variable (port) in
theorem Handled.load (h : Handled c x requests specs s)
    (hdevice : (requests i).paramInt "device_id" = x) (he : s.phase i = .waiting)
    (hs : s.step c requests (.load i) = .ok s') :
    Handled c x requests specs s' ∧
      (s.shared c x).step (fun i => saved (requests i) (port i)) (.load i) = .ok (s'.shared c x) := by
  obtain ⟨ports, hserves, hfinds⟩ := h.row
  obtain ⟨row, hload⟩ := load_step hserves hdevice
  rw [hload] at hs
  cases hs
  have hlater : ∀ {ports' : Ports}, Finds s requests ports' → Finds ⟨s.table,
      Function.update s.phase i (.loaded (deviceOfRow x row (withPorts specs ports)))⟩ requests
        ports' := by
    intro ports' hf
    refine hf.update fun _ => ?_
    rw [he]
    simp [Phase.progress]
  constructor
  · refine ⟨⟨ports, hserves, hlater hfinds⟩, ?_⟩
    intro j device hj
    by_cases hji : j = i
    · subst hji
      simp only [Function.update_self] at hj
      cases hj
      exact ⟨row, ports, rfl, hserves.storable, hlater hfinds⟩
    · simp only [Function.update_of_ne hji] at hj
      obtain ⟨row', ports', hdev, hstorable, hf⟩ := h.copies j device hj
      exact ⟨row', ports', hdev, hstorable, hlater hf⟩
  · have hvalue : (portsOf c x s.table).getD ∅ = ports := shared_value hserves
    simp only [Shared.step, Handling.shared]
    rw [Function.comp_update, hvalue]
    rfl

/-- A request that is answered does not touch what the other one is for. -/
theorem Finds.answered {ports ports' : Ports} (h : Finds s requests ports)
    (hapart : Disjoint (touched (requests i) (port i)) (touched (requests !i) (port !i)))
    (heq : ∀ id, id ∉ touched (requests i) (port i) → (ports'[id]?).isSome = (ports[id]?).isSome)
    (table : Table) :
    Finds ⟨table, Function.update s.phase i (.answered true)⟩ requests ports' := by
  intro j hj hput
  by_cases hji : j = i
  · subst hji
    simp [Phase.progress] at hj
  · simp only [Function.update_of_ne hji] at hj
    have hother : j = !i := Bool.eq_not.mpr hji
    have hnot : (requests j).paramInt "id" ∉ touched (requests i) (port i) := by
      intro hid
      refine Set.disjoint_left.mp hapart hid ?_
      rw [← hother]
      exact Or.inr ⟨hput, rfl⟩
    rw [heq _ hnot]
    exact h j hj hput

theorem Handled.save (h : Handled c x requests specs s)
    (he : Edits c x specs.ports (requests i) (port i))
    (hapart : Disjoint (touched (requests i) (port i)) (touched (requests !i) (port !i)))
    (hen : s.enabled c requests (.save i env)) (hs : s.step c requests (.save i env) = .ok s') :
    Handled c x requests specs s' ∧
      (s.shared c x).step (fun i => saved (requests i) (port i)) (.store i) =
        .ok (s'.shared c x) := by
  obtain ⟨device, hphase, hdocument⟩ := hen
  obtain ⟨row, ports', rfl, hstorable, hfinds⟩ := h.copies i device hphase
  obtain ⟨ports, hserves, -⟩ := h.row
  have hthere := hfinds i (by simp [hphase, Phase.progress])
  rw [save_step env he hphase hstorable hthere] at hs
  cases hs
  have hrow := serves_saveTo env hserves he hstorable hthere hdocument
  have hkeyed : OrderedMap.OwnKeyed Port.id ports' := hstorable.keyed
  constructor
  · refine ⟨⟨_, hrow, hfinds.answered hapart (fun id hid => ?_) _⟩, ?_⟩
    · rw [(saved_local (requests i) (port i)).outside hkeyed hid]
    · intro j device hj
      by_cases hji : j = i
      · subst hji
        simp only [Function.update_self] at hj
        cases hj
      · simp only [Function.update_of_ne hji] at hj
        obtain ⟨row₁, ports₁, hdev, hstorable₁, hf⟩ := h.copies j device hj
        exact ⟨row₁, ports₁, hdev, hstorable₁, hf.answered hapart (fun _ _ => rfl) _⟩
  · have hprogress : (s.shared c x).progress i = .loaded ports' := by
      simp only [Handling.shared, Function.comp, hphase]
      rfl
    rw [Shared.step_store hprogress]
    simp only [Handling.shared, hrow.portsOf]
    rw [Function.comp_update]
    rfl

/-- A run of the handlers is a run of the two clients. -/
theorem handlers_rmw {table : Table} {tr : List (Handling × HandlerStep)}
    (h₀ : Serves c x table specs) (hedits : ∀ i, Edits c x specs.ports (requests i) (port i))
    (hapart : ∀ i, Disjoint (touched (requests i) (port i)) (touched (requests !i) (port !i)))
    (hrun : (handlers c requests).Run (.begin table) tr s) :
    Handled c x requests specs s ∧
      (rmw fun i => saved (requests i) (port i)).Run (.begin specs.ports)
        (tr.map fun p => (p.1.shared c x, p.2.move)) (s.shared c x) := by
  have hbegin : (Handling.begin table).shared c x = .begin specs.ports := by
    have hvalue : (portsOf c x table).getD ∅ = specs.ports := by
      rw [h₀.portsOf]
      rfl
    show Shared.mk ((portsOf c x table).getD ∅) _ = _
    rw [hvalue]
    rfl
  have hinit : Handled c x requests specs (.begin table) :=
    ⟨⟨specs.ports, h₀, fun i _ hput => (hedits i).there hput⟩, fun i device hi => by cases hi⟩
  rw [← hbegin]
  refine hrun.map hinit fun s a s' hJ he hs => ?_
  cases a with
  | load i =>
      obtain ⟨hJ', hstep⟩ := hJ.load port (hedits i).device he hs
      have hwaiting : (s.phase i).progress = .waiting := by
        have he : s.phase i = .waiting := he
        rw [he]
        rfl
      exact ⟨hJ', hwaiting, hstep⟩
  | save i env =>
      obtain ⟨hJ', hstep⟩ := hJ.save (hedits i) (hapart i) he hs
      obtain ⟨device, hphase, -⟩ := he
      have hloaded : (s.phase i).progress = .loaded device.specifications.ports := by
        rw [hphase]
        rfl
      exact ⟨hJ', ⟨_, hloaded⟩, hstep⟩

theorem overtakes_iff {tr : List (Handling × HandlerStep)} (i : Bool) :
    Overtakes (tr.map fun p => (p.1.shared c x, p.2.move)) i ↔ SavesFirst tr i := by
  constructor
  · intro h
    obtain ⟨q, hq, hmove, copy, hcopy⟩ := h
    obtain ⟨p, hp, rfl⟩ := List.mem_map.mp hq
    refine ⟨p, hp, ?_, ?_⟩
    · cases hstep : p.2 with
      | load j =>
          simp only [hstep, HandlerStep.move] at hmove
          cases hmove
      | save j env =>
          simp only [hstep, HandlerStep.move] at hmove
          cases hmove
          exact ⟨env, rfl⟩
    · have hcopy : (p.1.phase (!i)).progress = .loaded copy := hcopy
      cases hphase : p.1.phase (!i) with
      | waiting | answered _ =>
          rw [hphase] at hcopy
          cases hcopy
      | loaded device => exact ⟨device, rfl⟩
  · intro h
    obtain ⟨p, hp, ⟨env, hstep⟩, device, hphase⟩ := h
    refine ⟨_, List.mem_map_of_mem hp, ?_, device.specifications.ports, ?_⟩
    · rw [hstep]
      rfl
    · show (p.1.phase (!i)).progress = _
      rw [hphase]
      rfl

end Simulation

/-! ## 4. Lost updates -/

section Final

variable {c : Cajun} {x : Int32} {requests : Bool → Request} {port : Bool → Port}
  {specs : Specifications} {table : Table} {tr : List (Handling × HandlerStep)} {s : Handling}

/-- The saved ports when both have been answered: one request's save made of the other's, or, where
    the other saved first while it held its copy, of the ports as they were. -/
theorem handlers_final (h₀ : Serves c x table specs)
    (hedits : ∀ i, Edits c x specs.ports (requests i) (port i))
    (hapart : ∀ i, Disjoint (touched (requests i) (port i)) (touched (requests !i) (port !i)))
    (hrun : (handlers c requests).Run (.begin table) tr s)
    (hdone : ∀ i, ∃ success, s.phase i = .answered success) :
    ∃ i, ((∀ j, ¬ SavesFirst tr j) ∧ portsOf c x s.table =
        some (saved (requests !i) (port !i) (saved (requests i) (port i) specs.ports))) ∨
      ((∀ j, SavesFirst tr j ↔ j = i) ∧ portsOf c x s.table =
        some (saved (requests !i) (port !i) specs.ports)) := by
  obtain ⟨hhandled, hrmw⟩ := handlers_rmw h₀ hedits hapart hrun
  obtain ⟨ports, hserves, -⟩ := hhandled.row
  have hvalue : portsOf c x s.table = some (s.shared c x).value := by
    rw [shared_value hserves]
    exact hserves.portsOf
  have hstored : ∀ i, (s.shared c x).progress i = .stored := by
    intro i
    obtain ⟨success, hphase⟩ := hdone i
    show (s.phase i).progress = _
    rw [hphase]
    rfl
  obtain ⟨i, hfinal⟩ := rmw_final hrmw hstored
  simp only [overtakes_iff] at hfinal
  refine ⟨i, ?_⟩
  rw [hvalue, Option.some_inj, Option.some_inj]
  exact hfinal

/-- Any two requests can come so: both load, and one saves while the other holds its copy. -/
theorem overlapping_run (i : Bool) (h₀ : Serves c x table specs)
    (hedits : ∀ i, Edits c x specs.ports (requests i) (port i))
    (hdocument : ∀ i row, SavesDocument c (requests i) (deviceOfRow x row specs)) :
    ∃ tr s, (handlers c requests).Run (.begin table) tr s ∧
      (∀ i, s.phase i = .answered true) ∧ SavesFirst tr i := by
  have hne : i ≠ !i := by simp
  have hthere : ∀ i, (requests i).method = .put →
      ((withPorts specs specs.ports).ports[(requests i).paramInt "id"]?).isSome :=
    fun i hput => (hedits i).there hput
  have env : Registry := fun _ => none
  obtain ⟨row, hload⟩ := load_step (s := .begin table) h₀ (hedits i).device
  obtain ⟨s₁, hs₁⟩ : ∃ s₁ : Handling, s₁ = ⟨table, Function.update (fun _ => .waiting) i
    (.loaded (deviceOfRow x row specs))⟩ := ⟨_, rfl⟩
  have htable₁ : s₁.table = table := by rw [hs₁]
  obtain ⟨row', hload'⟩ := load_step (htable₁ ▸ h₀) (hedits !i).device
  obtain ⟨s₂, hs₂⟩ : ∃ s₂ : Handling, s₂ = ⟨s₁.table, Function.update s₁.phase (!i)
    (.loaded (deviceOfRow x row' specs))⟩ := ⟨_, rfl⟩
  have hwaiting : s₁.phase (!i) = .waiting := by
    simp only [hs₁, Function.update_of_ne hne.symm]
  have hcopy : s₂.phase i = .loaded (deviceOfRow x row (withPorts specs specs.ports)) := by
    simp only [hs₂, hs₁, Function.update_of_ne hne, Function.update_self]
  have hcopy' : s₂.phase (!i) = .loaded (deviceOfRow x row' (withPorts specs specs.ports)) := by
    simp only [hs₂, Function.update_self]
  have hsave := save_step env (hedits i) hcopy h₀.storable (hthere i)
  obtain ⟨s₃, hs₃⟩ : ∃ s₃ : Handling, s₃ = ⟨saveTo c env s₂.table (requests i) (port i)
    (deviceOfRow x row (withPorts specs specs.ports)),
      Function.update s₂.phase i (.answered true)⟩ := ⟨_, rfl⟩
  have hcopy₃ : s₃.phase (!i) = .loaded (deviceOfRow x row' (withPorts specs specs.ports)) := by
    simp only [hs₃, Function.update_of_ne hne.symm, hcopy']
  have hsave' := save_step env (hedits !i) hcopy₃ h₀.storable (hthere !i)
  have hrun₁ : (handlers c requests).Run (.begin table) [(.begin table, .load i)] s₁ :=
    Machine.Run.start.step (Eq.refl Phase.waiting) (hload.trans (congrArg Except.ok hs₁.symm))
  have he₂ : (handlers c requests).enabled s₁ (.load !i) := hwaiting
  have he₃ : (handlers c requests).enabled s₂ (.save i env) := ⟨_, hcopy, hdocument i row⟩
  have he₄ : (handlers c requests).enabled s₃ (.save (!i) env) := ⟨_, hcopy₃, hdocument (!i) row'⟩
  have hrun₂ := hrun₁.step he₂ (hload'.trans (congrArg Except.ok hs₂.symm))
  have hrun₃ := hrun₂.step he₃ (hsave.trans (congrArg Except.ok hs₃.symm))
  have hrun₄ := hrun₃.step he₄ hsave'
  refine ⟨_, _, hrun₄, ?_, (s₂, .save i env), by simp, ⟨env, rfl⟩, _, hcopy'⟩
  intro j
  by_cases hj : j = !i
  · simp only [hj, Function.update_self]
  · obtain rfl : j = i := by simpa using Bool.eq_not.mpr hj
    simp only [Function.update_of_ne hne, hs₃, Function.update_self]

end Final

/-- When both requests have been answered and all their statements were carried out (`carriedOut`),
    the saved ports show what both ask for exactly when each could do its part and one that saved
    while the other held its copy asked for nothing new. -/
theorem handlers_exact (c : Cajun) (x : Int32) (requests : Bool → Request) (port : Bool → Port)
    (specs : Specifications) (table : Table) (tr : List (Handling × HandlerStep)) (s : Handling)
    (h₀ : Serves c x table specs) (hedits : ∀ i, Edits c x specs.ports (requests i) (port i))
    (hapart : ∀ i, Disjoint (touched (requests i) (port i)) (touched (requests !i) (port !i)))
    (hrun : (handlers c requests).Run (.begin table) tr s)
    (hdone : ∀ i, ∃ success, s.phase i = .answered success) :
    portsOf c x s.table = some (asked (requests true) (port true)
        (asked (requests false) (port false) specs.ports)) ↔
      (∀ i, Lands (requests i) (port i) specs.ports) ∧
        ∀ i, SavesFirst tr i → AsksNothing (requests i) (port i) specs.ports := by
  have hkeyed : OrderedMap.OwnKeyed Port.id specs.ports := h₀.storable.keyed
  -- what both ask for does not depend on the order
  have hboth : ∀ i, asked (requests true) (port true) (asked (requests false) (port false)
      specs.ports) = asked (requests !i) (port !i) (asked (requests i) (port i) specs.ports) := by
    intro i
    cases i with
    | false => rfl
    | true => exact (asked_local _ _).comm (asked_local _ _) (hapart false) hkeyed
  have hlands : ∀ i, (∀ j, Lands (requests j) (port j) specs.ports) ↔
      Lands (requests i) (port i) specs.ports ∧ Lands (requests !i) (port !i) specs.ports := by
    intro i
    cases i with
    | false => exact Bool.forall_bool
    | true => exact Bool.forall_bool.trans and_comm
  obtain ⟨i, hfinal⟩ := handlers_final h₀ hedits hapart hrun hdone
  rcases hfinal with ⟨hnone, hports⟩ | ⟨hfirst, hports⟩
  · rw [hports, Option.some_inj, hboth i, (saved_local _ _).comp_eq_iff (asked_local _ _)
      (saved_local _ _) (asked_local _ _) (hapart i) hkeyed, saved_eq_asked_iff hkeyed,
      saved_eq_asked_iff hkeyed, hlands i]
    exact ⟨fun h => ⟨h, fun j hj => absurd hj (hnone j)⟩, fun h => h.1⟩
  · -- the other request's save is made of the ports as they were
    have hlost := (Local.id _ (touched (requests i) (port i))).comp_eq_iff (asked_local _ _)
      (saved_local (requests !i) (port !i)) (asked_local _ _) (hapart i) hkeyed
    rw [hports, Option.some_inj, hboth i, hlost, saved_eq_asked_iff hkeyed, eq_comm,
      asked_eq_self_iff (hedits i), hlands i]
    constructor
    · intro h
      refine ⟨⟨h.1.lands, h.2⟩, fun j hj => ?_⟩
      rw [(hfirst j).mp hj]
      exact h.1
    · intro h
      exact ⟨h.2 i ((hfirst i).mpr rfl), h.1.2⟩

/-- A port of an id that is free. -/
def fan : Port := { id := 4, name := ascii "fan" }

def fanDoc : Object := Port.model.toJsonObject (fun _ => none) fan

def fanSpecificationsDoc : Object :=
  Specifications.model.toJsonObject (fun _ => none) (withPorts thermostat (thermostat.ports.insert 4 fan))

def fanCajun : Cajun :=
  Cajun.knowing [thermostatDoc, lampDoc, fanDoc, lampSpecificationsDoc, fanSpecificationsDoc]

/-- The lamp is put in the heater's place, the fan is added. -/
def lampAndFan (i : Bool) : Port := if i then fan else lamp

def lampAndFanRequests (i : Bool) : Request :=
  if i then { method := .post, params := fun name => if name = "device_id" then ascii "7" else []
              postDataRaw := fanCajun.write fanDoc }
  else { method := .put, params := fun name => if name = "device_id" then ascii "7" else ascii "0"
         postDataRaw := fanCajun.write lampDoc }

def fanTable : Table where
  rows := (∅ : Std.ExtTreeMap Int32 Row).insert 7 fun column =>
    if column = "specifications" then fanCajun.write thermostatDoc else []
  nextId := 8

set_option maxRecDepth 4000 in
theorem fanCajun_reproduces : ∀ doc ∈ [thermostatDoc, lampDoc, fanDoc, lampSpecificationsDoc,
    fanSpecificationsDoc], fanCajun.Reproduces doc := by
  intro doc hdoc
  simp only [List.mem_cons, List.not_mem_nil, or_false] at hdoc
  rcases hdoc with rfl | rfl | rfl | rfl | rfl
  · exact Cajun.knowing_reproduces [] _ (by simp)
  · exact Cajun.knowing_reproduces [thermostatDoc] _ (by decide)
  · exact Cajun.knowing_reproduces [thermostatDoc, lampDoc] _ (by decide)
  · exact Cajun.knowing_reproduces [thermostatDoc, lampDoc, fanDoc] _ (by decide)
  · exact Cajun.knowing_reproduces [thermostatDoc, lampDoc, fanDoc, lampSpecificationsDoc] []
      (by decide)

theorem fanTable_serves : Serves fanCajun 7 fanTable thermostat where
  id_ne := by decide
  row := by
    refine ⟨_, Std.ExtTreeMap.getElem?_insert_self, ?_⟩
    refine (ModelClass.fromJson_of_read _ (fanCajun_reproduces thermostatDoc (by simp)) _).trans ?_
    exact specifications_reread thermostat_storable fun k hk => by simp at hk
  storable := thermostat_storable

theorem fanDoc_port : portOfJson fanDoc = fan := portOfJson_toJson (by decide)

theorem lampAndFan_read (i : Bool) :
    fanCajun.read (lampAndFanRequests i).postDataRaw = .ok (if i then fanDoc else lampDoc) := by
  cases i with
  | false => exact fanCajun_reproduces lampDoc (by simp)
  | true => exact fanCajun_reproduces fanDoc (by simp)

theorem lampAndFan_edits (i : Bool) :
    Edits fanCajun 7 thermostat.ports (lampAndFanRequests i) (lampAndFan i) := by
  have hread := lampAndFan_read i
  cases i with
  | false =>
      refine ⟨by decide, Or.inr rfl, ⟨lampDoc, hread, lampDoc_port⟩, by decide, fun _ => ?_⟩
      have hid : (lampAndFanRequests false).paramInt "id" = 0 := by decide
      rw [hid]
      simp [thermostat]
  | true => exact ⟨by decide, Or.inl rfl, ⟨fanDoc, hread, fanDoc_port⟩, by decide, fun h => by cases h⟩

theorem lampAndFan_apart (i : Bool) : Disjoint (touched (lampAndFanRequests i) (lampAndFan i))
    (touched (lampAndFanRequests !i) (lampAndFan !i)) := by
  have hput : ∀ id, id ∈ touched (lampAndFanRequests false) (lampAndFan false) → id = 0 := by
    intro id hid
    rcases hid with hid | ⟨-, hid⟩
    · exact hid
    · exact hid.trans (by decide)
  have hpost : ∀ id, id ∈ touched (lampAndFanRequests true) (lampAndFan true) → id = 4 := by
    intro id hid
    rcases hid with hid | ⟨hm, -⟩
    · exact hid
    · cases hm
  have hne : ∀ id : Int32, id = 0 → id ≠ 4 := by
    intro id hid
    rw [hid]
    decide
  rw [Set.disjoint_left]
  cases i with
  | false => exact fun id h h' => hne id (hput id h) (hpost id h')
  | true => exact fun id h h' => hne id (hput id h') (hpost id h)

/-- What each of the two saves of the device as it was. -/
theorem lampAndFan_document (i : Bool) (row : Row) :
    SavesDocument fanCajun (lampAndFanRequests i) (deviceOfRow 7 row thermostat) := by
  intro doc d hread hsaved
  rw [lampAndFan_read i] at hread
  cases hread
  have hdevice : savedDevice (lampAndFanRequests i) (lampAndFan i) (deviceOfRow 7 row thermostat) =
      some ((deviceOfRow 7 row thermostat).putPort (savedKey (lampAndFanRequests i) (lampAndFan i))
        (lampAndFan i)) := savedDevice_loaded (lampAndFan i) row (lampAndFan_edits i).method
          thermostat_storable (lampAndFan_edits i).there
  cases i with
  | false =>
      have hport : portOfJson (if false then fanDoc else lampDoc) = lampAndFan false := lampDoc_port
      rw [hport, hdevice] at hsaved
      cases hsaved
      exact fanCajun_reproduces lampSpecificationsDoc (by simp)
  | true =>
      have hport : portOfJson (if true then fanDoc else lampDoc) = lampAndFan true := fanDoc_port
      rw [hport, hdevice] at hsaved
      cases hsaved
      exact fanCajun_reproduces fanSpecificationsDoc (by simp)

/-- Both load, then both save. -/
theorem lampAndFanRun : ∃ tr s, (handlers fanCajun lampAndFanRequests).Run (.begin fanTable) tr s ∧
    (∀ i, ∃ success, s.phase i = .answered success) ∧ SavesFirst tr false := by
  obtain ⟨tr, s, hrun, hdone, hfirst⟩ := overlapping_run false fanTable_serves lampAndFan_edits
    lampAndFan_document
  exact ⟨tr, s, hrun, fun i => ⟨true, hdone i⟩, hfirst⟩

theorem handlers_exact_lampAndFan : ∃ tr s,
    (handlers fanCajun lampAndFanRequests).Run (.begin fanTable) tr s ∧
      (portsOf fanCajun 7 s.table = some (asked (lampAndFanRequests true) fan
          (asked (lampAndFanRequests false) lamp thermostat.ports)) ↔
        (∀ i, Lands (lampAndFanRequests i) (lampAndFan i) thermostat.ports) ∧
          ∀ i, SavesFirst tr i → AsksNothing (lampAndFanRequests i) (lampAndFan i)
            thermostat.ports) := by
  obtain ⟨tr, s, hrun, hdone, -⟩ := lampAndFanRun
  exact ⟨tr, s, hrun, handlers_exact fanCajun 7 lampAndFanRequests lampAndFan thermostat fanTable tr
    s fanTable_serves lampAndFan_edits lampAndFan_apart hrun hdone⟩

/-- The lamp is lost: the fan's request saves the ports it had loaded. -/
theorem not_handlers_lampAndFan :
    ¬ ∀ (c : Cajun) (x : Int32) (requests : Bool → Request) (port : Bool → Port)
      (specs : Specifications) (table : Table) (tr : List (Handling × HandlerStep)) (s : Handling),
      Serves c x table specs → (∀ i, Edits c x specs.ports (requests i) (port i)) →
      (∀ i, Disjoint (touched (requests i) (port i)) (touched (requests !i) (port !i))) →
      (handlers c requests).Run (.begin table) tr s →
      (∀ i, ∃ success, s.phase i = .answered success) →
      portsOf c x s.table = some (asked (requests true) (port true)
        (asked (requests false) (port false) specs.ports)) := by
  intro h
  obtain ⟨tr, s, hrun, hdone, hfirst⟩ := lampAndFanRun
  have hboth := h fanCajun 7 lampAndFanRequests lampAndFan thermostat fanTable tr s fanTable_serves
    lampAndFan_edits lampAndFan_apart hrun hdone
  obtain ⟨i, ⟨hnone, -⟩ | ⟨hfirst', hports⟩⟩ := handlers_final fanTable_serves lampAndFan_edits
    lampAndFan_apart hrun hdone
  · exact hnone false hfirst
  · obtain rfl := (hfirst' false).mp hfirst
    rw [hports, Option.some_inj] at hboth
    -- the heater is still there
    have hport := congrArg (fun ports : Ports => ports[(0 : Int32)]?) hboth
    revert hport
    decide

end Httpd

end Domoio
