import Domoio.Handlers
import Domoio.Routing
import Domoio.Rows

/-
  File:      Domoio/Bodies.lean
  Subject:   Request bodies that cannot be read.

  The JSON reader and the casts of constant elements throw, and nothing between a handler and
  mongoose catches. `bodies_exact`: a request is answered with a bool, and a rejected body changes
  nothing, exactly when every body that is read can be read. What is changed is never the trouble:
  each handler reads before it saves.
-/

namespace Domoio

open Lib

namespace Httpd

/-! ## 1. Reading -/

/-- A computation that may throw returns. -/
def Returns {ε α : Type} (r : Except ε α) : Prop := ∃ a, r = .ok a

section Returns

variable {ε α β : Type}

@[simp] theorem returns_ok (a : α) : Returns (.ok a : Except ε α) := ⟨a, rfl⟩

@[simp] theorem not_returns_error (e : ε) : ¬ Returns (.error e : Except ε α) := by
  intro h
  rcases h with ⟨a, ha⟩
  cases ha

theorem returns_bind {r : Except ε α} {f : α → Except ε β} :
    Returns (r >>= f) ↔ ∃ a, r = .ok a ∧ Returns (f a) := by
  cases r with
  | error e => simp [bind, Except.bind]
  | ok a => simp [bind, Except.bind]

theorem returns_map {r : Except ε α} {f : α → β} : Returns (r.map f) ↔ Returns r := by
  cases r with
  | error e => simp [Except.map]
  | ok a => simp [Except.map]

theorem returns_mapM {f : α → Except ε β} {l : List α} :
    Returns (l.mapM f) ↔ ∀ a ∈ l, Returns (f a) := by
  induction l with
  | nil => simp [pure, Except.pure]
  | cons a l ih =>
      rw [List.mapM_cons, returns_bind, List.forall_mem_cons, ← ih]
      constructor
      · intro h
        rcases h with ⟨b, hb, hrest⟩
        obtain ⟨bs, hbs, -⟩ := returns_bind.mp hrest
        exact ⟨⟨b, hb⟩, ⟨bs, hbs⟩⟩
      · intro h
        rcases h with ⟨⟨b, hb⟩, ⟨bs, hbs⟩⟩
        exact ⟨b, hb, returns_bind.mpr ⟨bs, hbs, returns_ok _⟩⟩

end Returns

/-- The elements of a device's document that are read as ports. -/
def portElements (doc : Object) : List Json :=
  (Object.get (Object.get doc "specifications").toObject "ports").toArray

/-- The elements are objects, as the constant cast needs them. -/
def AllObjects (elements : List Json) : Prop := ∀ e ∈ elements, ∃ o, e = .object o

/-- A stored device's specifications can be read. -/
def Legible (c : Cajun) (row : Row) : Prop :=
  Returns (Specifications.model.fromJson c (row "specifications") {})

theorem returns_portsFromJson {es : List Json} {ports : Ports} :
    Returns (Specifications.portsFromJson es ports) ↔ AllObjects es := by
  induction es generalizing ports with
  | nil => simp [Specifications.portsFromJson, AllObjects]
  | cons e es ih =>
      rw [AllObjects, List.forall_mem_cons]
      cases e with
      | object o =>
          have hstep : Specifications.portsFromJson (.object o :: es) ports =
              Specifications.portsFromJson es (ports.insert (portOfJson o).id (portOfJson o)) := by
            simp only [Specifications.portsFromJson, Json.castObject, portFromJson_eq]
            rfl
          rw [hstep, ih]
          exact (and_iff_right ⟨o, rfl⟩).symm
      | null | boolean | number | string | array =>
          refine iff_of_false (not_returns_error JsonException.badCast) ?_
          intro h
          rcases h with ⟨⟨o, ho⟩, -⟩
          cases ho

variable {c : Cajun} {body : Bytes} {row : Row}

theorem returns_fromJson {T : Type} (M : ModelClass Registry T) (t : T) :
    Returns (M.fromJson c body t) ↔ ∃ doc, c.read body = .ok doc ∧ Returns (M.fromJsonObject doc t) :=
  returns_bind

theorem returns_device (d : Device) : Returns (Device.model.fromJson c body d) ↔
    ∃ doc, c.read body = .ok doc ∧ AllObjects (portElements doc) := by
  simp only [returns_fromJson, deviceFromJson_eq, specificationsFromJson_eq, returns_map,
    returns_portsFromJson]
  rfl

theorem returns_user (u : User) : Returns (User.model.fromJson c body u) ↔ Returns (c.read body) := by
  simp only [returns_fromJson, userFromJson_eq, returns_ok, and_true]
  rfl

theorem returns_port (p : Port) : Returns (Port.model.fromJson c body p) ↔ Returns (c.read body) := by
  simp only [returns_fromJson, portFromJson_eq, returns_ok, and_true]
  rfl

theorem returns_deviceRow (i : Int32) : Returns (Device.model.loadFromRes c i row {}) ↔ Legible c row := by
  have hload : Device.model.loadFields i row Device.model.fields {} = some (deviceOfRow i row {}) := rfl
  rw [ModelClass.loadFromRes, hload]
  show Returns (Specifications.model.fromJson c (row "specifications") {} >>= fun specs =>
    .ok (deviceOfRow i row specs)) ↔ _
  simp only [returns_bind, returns_ok, and_true]
  rfl

/-! ## 2. Requests -/

/-- The body of a request to an action can be read: the JSON reader accepts it, and the elements of a
    device's ports are objects. `set_port` does not take an empty one. -/
def Accepts (c : Cajun) (body : Bytes) : Callback → Prop
  | .devices => ∃ doc, c.read body = .ok doc ∧ AllObjects (portElements doc)
  | .users | .ports => Returns (c.read body)
  | .setPort => body ≠ [] ∧ Returns (c.read body)

/-- A request to an action for a model creates or updates. -/
def Writes (request : Request) : Prop :=
  request.method = .post ∧ request.paramInt "id" = 0 ∨
    request.method = .put ∧ request.paramInt "id" ≠ 0

/-- A request gets as far as reading its body. -/
def ReadsBody (statements : Statements) (c : Cajun) (request : Request) (s : Server) : Callback → Prop
  | .devices | .users => Writes request
  | .ports => ∃ device, Device.model.loadWhen statements c s.devices (request.paramInt "device_id") {} =
      .ok (device, true) ∧ (request.method = .post ∨
        request.method = .put ∧ (device.getPort (request.paramInt "id")).isSome)
  | .setPort => ∃ device, s.live (request.paramInt "device_id") = some device ∧
      (device.port (request.paramInt "id")).isSome ∧ request.postDataRaw ≠ []

/-- A request to the action for the devices loads the row with this id. -/
def LoadsRow (request : Request) (i : Int32) : Prop :=
  request.method = .get ∧ (request.paramInt "id" = 0 ∨ i = request.paramInt "id") ∨
    request.method = .put ∧ request.paramInt "id" ≠ 0 ∧ i = request.paramInt "id"

/-- A request loads the device with this id. -/
def LoadsDevice (request : Request) (i : Int32) : Callback → Prop
  | .devices => LoadsRow request i
  | .ports => i = request.paramInt "device_id"
  | .users | .setPort => False

/-- The devices a request loads and the body it reads can be read. -/
structure CanRead (statements : Statements) (c : Cajun) (request : Request) (s : Server)
    (callback : Callback) : Prop where
  rows : statements.select = true → ∀ i row, LoadsDevice request i callback →
    s.devices.rows[i]? = some row → Legible c row
  body : ReadsBody statements c request s callback → Accepts c request.postDataRaw callback

variable {statements : Statements} {request : Request} {s : Server} {table : Table} {env : Registry}

section Resource

variable {T : Type} {M : ModelClass Registry T} {blank : T} {rowOk : Row → Prop} {bodyOk : Prop}

theorem returns_loadWhen (hrow : ∀ i row, Returns (M.loadFromRes c i row blank) ↔ rowOk row)
    (id : Int32) : Returns (M.loadWhen statements c table id blank) ↔
      (statements.select = true → ∀ row, table.rows[id]? = some row → rowOk row) := by
  cases hselect : statements.select with
  | false => simp [ModelClass.loadWhen, hselect]
  | true =>
      simp only [ModelClass.loadWhen, hselect, if_true, ModelClass.loadFromDb, forall_const]
      cases hr : table.rows[id]? with
      | none => simp
      | some row =>
          simp only [returns_bind, Option.some.injEq, forall_eq', ← hrow id row]
          constructor
          · intro h
            rcases h with ⟨t, ht, -⟩
            exact ⟨t, ht⟩
          · intro h
            rcases h with ⟨t, ht⟩
            exact ⟨t, ht, returns_ok _⟩

theorem returns_allWhen (hrow : ∀ i row, Returns (M.loadFromRes c i row blank) ↔ rowOk row) :
    Returns (allWhen M statements c blank table) ↔
      (statements.select = true → ∀ (i : Int32) (row : Row), table.rows[i]? = some row →
        rowOk row) := by
  cases hselect : statements.select with
  | false => simp [allWhen, hselect]
  | true =>
      simp only [allWhen, hselect, if_true, all, returns_mapM, forall_const]
      constructor
      · intro h i row hr
        have hmem : (i, row) ∈ table.rows.toList :=
          Std.ExtTreeMap.mem_toList_iff_getElem?_eq_some.mpr hr
        exact (hrow i row).mp (h (i, row) hmem)
      · rintro h ⟨i, row⟩ hmem
        exact (hrow i row).mpr (h i row (Std.ExtTreeMap.mem_toList_iff_getElem?_eq_some.mp hmem))

theorem returns_bind_ok {α β : Type} {r : Except JsonException α} {f : α → β} :
    Returns (r >>= fun a => pure (f a)) ↔ Returns r := returns_map

/-- When the action for a model returns. -/
theorem returns_resourceWhen (hrow : ∀ i row, Returns (M.loadFromRes c i row blank) ↔ rowOk row)
    (hbody : ∀ t, Returns (M.fromJson c request.postDataRaw t) ↔ bodyOk) :
    Returns (actions.resourceWhen M blank statements c env table request) ↔
      (statements.select = true → ∀ i row, LoadsRow request i → table.rows[i]? = some row →
        rowOk row) ∧ (Writes request → bodyOk) := by
  unfold actions.resourceWhen actions.resourceWith
  dsimp only [queriesWhen]
  by_cases hindex : request.method = .get ∧ request.paramInt "id" = 0
  · have hwrites : ¬ Writes request := by simp [Writes, hindex.1]
    have hloads : ∀ i, LoadsRow request i := fun i => Or.inl ⟨hindex.1, Or.inl hindex.2⟩
    rw [if_pos hindex, returns_bind_ok, returns_allWhen hrow]
    simp [hwrites, hloads]
  rw [if_neg hindex]
  by_cases hshow : request.method = .get ∧ request.paramInt "id" ≠ 0
  · have hwrites : ¬ Writes request := by simp [Writes, hshow.1]
    have hloads : ∀ i, LoadsRow request i ↔ i = request.paramInt "id" := by
      simp [LoadsRow, hshow.1, hshow.2]
    rw [if_pos hshow, returns_bind_ok, returns_loadWhen hrow]
    simp only [hwrites, hloads, false_implies, and_true]
    exact ⟨fun h hs i row hi => hi ▸ h hs row, fun h hs row => h hs _ row rfl⟩
  rw [if_neg hshow]
  by_cases hcreate : request.method = .post ∧ request.paramInt "id" = 0
  · have hwrites : Writes request := Or.inl hcreate
    have hloads : ∀ i, ¬ LoadsRow request i := by simp [LoadsRow, hcreate.1]
    rw [if_pos hcreate, returns_bind_ok, hbody]
    simp [hwrites, hloads]
  rw [if_neg hcreate]
  by_cases hupdate : request.method = .put ∧ request.paramInt "id" ≠ 0
  · have hwrites : Writes request := Or.inr hupdate
    have hloads : ∀ i, LoadsRow request i ↔ i = request.paramInt "id" := by
      simp [LoadsRow, hupdate.1, hupdate.2]
    have hload : Returns (M.loadWhen statements c table (request.paramInt "id") blank) ↔
        (statements.select = true → ∀ i row, i = request.paramInt "id" → table.rows[i]? = some row →
          rowOk row) := by
      rw [returns_loadWhen hrow]
      exact ⟨fun h hs i row hi => hi ▸ h hs row, fun h hs row => h hs _ row rfl⟩
    rw [if_pos hupdate, returns_bind]
    simp only [hwrites, hloads, true_implies, ← hload]
    constructor
    · intro hex
      rcases hex with ⟨⟨t, found⟩, ht, hrest⟩
      rw [returns_bind_ok, hbody] at hrest
      exact ⟨⟨_, ht⟩, hrest⟩
    · intro hex
      rcases hex with ⟨⟨⟨t, found⟩, ht⟩, hok⟩
      refine ⟨_, ht, ?_⟩
      rw [returns_bind_ok, hbody]
      exact hok
  · have hwrites : ¬ Writes request := by
      intro hex
      rcases hex with h | h
      · exact hcreate h
      · exact hupdate h
    have hloads : ∀ i, ¬ LoadsRow request i := by
      rintro i (⟨hm, -⟩ | ⟨hm, hid, -⟩)
      · by_cases hid : request.paramInt "id" = 0
        · exact hindex ⟨hm, hid⟩
        · exact hshow ⟨hm, hid⟩
      · exact hupdate ⟨hm, hid⟩
    rw [if_neg hupdate]
    simp [hwrites, hloads, pure, Except.pure]

/-- Where the body cannot be read the action leaves the table as it was. -/
theorem table_resourceWhen {reply : Reply}
    (hbody : ∀ t, ¬ Returns (M.fromJson c request.postDataRaw t))
    (h : actions.resourceWhen M blank statements c env table request = .ok reply) :
    reply.table = table := by
  unfold actions.resourceWhen actions.resourceWith at h
  dsimp only [queriesWhen] at h
  split at h
  · obtain ⟨_, -, hreply⟩ := bind_eq_ok h
    cases hreply
    rfl
  split at h
  · obtain ⟨_, -, hreply⟩ := bind_eq_ok h
    cases hreply
    rfl
  split at h
  · obtain ⟨t, ht, -⟩ := bind_eq_ok h
    exact absurd ⟨t, ht⟩ (hbody blank)
  split at h
  · obtain ⟨⟨t, found⟩, -, hrest⟩ := bind_eq_ok h
    obtain ⟨t', ht', -⟩ := bind_eq_ok hrest
    exact absurd ⟨t', ht'⟩ (hbody t)
  · cases h
    rfl

end Resource

/-- Behind the load the action for the ports reads the body of a POST, and of a PUT to a port that is
    there. -/
theorem returns_portsLoadedWhen (device : Device) :
    Returns (actions.portsLoadedWhen statements c env table request device) ↔
      (request.method = .post ∨ request.method = .put ∧
        (device.getPort (request.paramInt "id")).isSome → Returns (c.read request.postDataRaw)) := by
  unfold actions.portsLoadedWhen actions.portsLoadedWith
  dsimp only [queriesWhen]
  cases hm : request.method with
  | get =>
      refine iff_of_true ?_ (by simp)
      cases device.getPort (request.paramInt "id") with
      | none => exact returns_ok _
      | some p => exact returns_ok _
  | post =>
      simp only [true_or, true_implies]
      exact returns_bind_ok.trans (returns_port {})
  | put =>
      cases hp : device.getPort (request.paramInt "id") with
      | none => exact iff_of_true (returns_ok _) (by simp)
      | some p =>
          simp only [Option.isSome_some, reduceCtorEq, and_self, or_true, true_implies]
          exact returns_bind_ok.trans (returns_port p.2)
  | options | delete | other => exact iff_of_true (returns_ok _) (by simp)

theorem table_portsLoadedWhen {device : Device} {reply : Reply}
    (hbody : ¬ Returns (c.read request.postDataRaw))
    (h : actions.portsLoadedWhen statements c env table request device = .ok reply) :
    reply.table = table := by
  unfold actions.portsLoadedWhen actions.portsLoadedWith at h
  dsimp only [queriesWhen] at h
  cases hm : request.method with
  | get =>
      rw [hm] at h
      cases hp : device.getPort (request.paramInt "id") with
      | none | some p =>
          simp only [hp] at h
          cases h
          rfl
  | post =>
      rw [hm] at h
      obtain ⟨port, hport, -⟩ := bind_eq_ok h
      exact absurd ((returns_port {}).mp ⟨port, hport⟩) hbody
  | put =>
      rw [hm] at h
      cases hp : device.getPort (request.paramInt "id") with
      | none =>
          simp only [hp] at h
          cases h
          rfl
      | some p =>
          simp only [hp] at h
          obtain ⟨port, hport, -⟩ := bind_eq_ok h
          exact absurd ((returns_port p.2).mp ⟨port, hport⟩) hbody
  | options | delete | other =>
      rw [hm] at h
      cases h
      rfl

/-- When the action for the ports returns. -/
theorem returns_portsWhen : Returns (actions.portsWhen statements c s.live s.devices request) ↔
    CanRead statements c request s .ports := by
  have hload : Returns (Device.model.loadWhen statements c s.devices
      (request.paramInt "device_id") {}) ↔ (statements.select = true → ∀ i row,
        LoadsDevice request i .ports → s.devices.rows[i]? = some row → Legible c row) := by
    rw [returns_loadWhen fun i row => returns_deviceRow i]
    exact ⟨fun h hs i row hi => hi ▸ h hs row, fun h hs row => h hs _ row rfl⟩
  constructor
  · intro h
    obtain ⟨⟨device, loaded⟩, hr, hrest⟩ := returns_bind.mp h
    refine ⟨hload.mp ⟨_, hr⟩, ?_⟩
    intro hex
    rcases hex with ⟨device', hr', hreads⟩
    cases hr.symm.trans hr'
    exact (returns_portsLoadedWhen device).mp hrest hreads
  · intro hex
    rcases hex with ⟨hrows, hbody⟩
    obtain ⟨⟨device, loaded⟩, hr⟩ := hload.mpr hrows
    refine returns_bind.mpr ⟨_, hr, ?_⟩
    cases loaded with
    | false => exact returns_ok _
    | true => exact (returns_portsLoadedWhen device).mpr fun hreads => hbody ⟨device, hr, hreads⟩

theorem table_portsWhen {reply : Reply} (hbody : ¬ Returns (c.read request.postDataRaw))
    (h : actions.portsWhen statements c env table request = .ok reply) : reply.table = table := by
  obtain ⟨⟨device, loaded⟩, -, hrest⟩ := bind_eq_ok h
  cases loaded with
  | false =>
      cases hrest
      rfl
  | true => exact table_portsLoadedWhen hbody hrest

/-! ## 3. The server -/

theorem returns_replied (name : TableName) (r : Except JsonException Reply) :
    Returns (s.replied name r).1 ↔ Returns r := by
  cases r with
  | ok reply => exact iff_of_true (returns_ok _) (returns_ok _)
  | error e => exact iff_of_false (not_returns_error e) (not_returns_error e)

theorem replied_unchanged (name : TableName) {r : Except JsonException Reply}
    (h : ∀ reply, r = .ok reply → reply.table = s.table name) : (s.replied name r).2 = s := by
  cases r with
  | ok reply =>
      rw [Server.replied, h reply rfl, Server.setTable_table]
  | error e => rfl

/-- `set_port`: the three ways it goes. -/
theorem setPort_cases (statements : Statements) (c : Cajun) (request : Request) (s : Server) :
    programs.setPort c request s = (.ok none, s) ∧ ¬ ReadsBody statements c request s .setPort ∨
      ReadsBody statements c request s .setPort ∧
        ((∃ e, c.read request.postDataRaw = .error e ∧ programs.setPort c request s = (.error e, s)) ∨
          ∃ doc s', c.read request.postDataRaw = .ok doc ∧
            programs.setPort c request s = (.ok (some (ascii "OK")), s')) := by
  unfold programs.setPort
  rw [Program.bind_read]
  cases hd : s.live (request.paramInt "device_id") with
  | none => exact Or.inl ⟨rfl, by simp [ReadsBody, hd]⟩
  | some device =>
      cases hp : device.port (request.paramInt "id") with
      | none => exact Or.inl ⟨by simp only [hp]; rfl, by simp [ReadsBody, hd, hp]⟩
      | some port =>
          simp only [hp]
          by_cases hempty : request.postDataRaw = []
          · rw [if_pos hempty]
            exact Or.inl ⟨rfl, by simp [ReadsBody, hempty]⟩
          · rw [if_neg hempty]
            refine Or.inr ⟨⟨device, hd, by rw [hp]; rfl, hempty⟩, ?_⟩
            cases hread : c.read request.postDataRaw with
            | error e => exact Or.inl ⟨e, rfl, rfl⟩
            | ok doc => exact Or.inr ⟨doc, _, rfl, rfl⟩

/-- A handler returns exactly when what it reads can be read. -/
theorem returns_run (callback : Callback) : Returns (callback.run statements c request s).1 ↔
    CanRead statements c request s callback := by
  cases callback with
  | devices =>
      rw [Callback.run, run_resource, returns_replied,
        returns_resourceWhen (fun i row => returns_deviceRow i) returns_device]
      exact ⟨fun h => ⟨h.1, h.2⟩, fun h => ⟨h.rows, h.body⟩⟩
  | users =>
      have hrow : ∀ i row, Returns (User.model.loadFromRes c i row {}) ↔ True := fun i row =>
        iff_true_intro (returns_ok _)
      rw [Callback.run, run_resource, returns_replied, returns_resourceWhen hrow returns_user]
      exact ⟨fun h => ⟨fun _ _ _ hi => hi.elim, h.2⟩, fun h => ⟨fun _ _ _ _ _ => trivial, h.body⟩⟩
  | ports => rw [Callback.run, run_ports, returns_replied, returns_portsWhen]
  | setPort =>
      have hrows : ∀ i, ¬ LoadsDevice request i .setPort := fun _ h => h
      rcases setPort_cases statements c request s with ⟨hrun, hreads⟩ | ⟨hreads, hbody⟩
      · rw [Callback.run, hrun]
        exact iff_of_true (returns_ok _) ⟨fun _ i _ hi => absurd hi (hrows i), fun h => absurd h hreads⟩
      · rcases hbody with ⟨e, hread, hrun⟩ | ⟨doc, s', hread, hrun⟩
        · rw [Callback.run, hrun]
          refine iff_of_false (not_returns_error e) fun h => ?_
          obtain ⟨-, doc, hdoc⟩ := h.body hreads
          rw [hread] at hdoc
          cases hdoc
        · rw [Callback.run, hrun]
          refine iff_of_true (returns_ok _) ⟨fun _ i _ hi => absurd hi (hrows i), fun _ => ?_⟩
          obtain ⟨-, -, -, hbody⟩ := hreads
          exact ⟨hbody, doc, hread⟩

/-- A body that cannot be read changes nothing. -/
theorem run_unchanged (callback : Callback) (h : ¬ Accepts c request.postDataRaw callback) :
    (callback.run statements c request s).2 = s := by
  cases callback with
  | devices =>
      rw [Callback.run, run_resource]
      exact replied_unchanged _ fun reply => table_resourceWhen fun d hd => h ((returns_device d).mp hd)
  | users =>
      rw [Callback.run, run_resource]
      exact replied_unchanged _ fun reply => table_resourceWhen fun u hu => h ((returns_user u).mp hu)
  | ports =>
      rw [Callback.run, run_ports]
      exact replied_unchanged _ fun reply => table_portsWhen h
  | setPort =>
      rcases setPort_cases statements c request s with ⟨hrun, -⟩ | ⟨hreads, hbody⟩
      · rw [Callback.run, hrun]
      · rcases hbody with ⟨e, -, hrun⟩ | ⟨doc, s', hread, -⟩
        · rw [Callback.run, hrun]
        · obtain ⟨-, -, -, hbody⟩ := hreads
          exact absurd ⟨hbody, doc, hread⟩ h

variable {actions : List (HttpdAction Callback)} {method : Method} {url : Bytes}

/-- A request whose action is found. -/
theorem handleRequest_found {callback : Callback}
    (h : resolve actions method url body = some (callback, request)) :
    (Returns (handleRequest statements c actions method url body s).1 ↔
      Returns (callback.run statements c request s).1) ∧
    (handleRequest statements c actions method url body s).2 =
      (callback.run statements c request s).2 := by
  have hbind : handleRequest statements c actions method url body =
      callback.run statements c request >>= fun r => pure r.isSome := by
    rw [handleRequest, h]
  rw [hbind]
  cases hrun : callback.run statements c request s with
  | mk r s' =>
      cases r with
      | ok data =>
          rw [Program.bind_ok hrun]
          exact ⟨iff_of_true (returns_ok _) (returns_ok _), rfl⟩
      | error e =>
          rw [Program.bind_error hrun]
          exact ⟨iff_of_false (not_returns_error e) (not_returns_error e), rfl⟩

/-- A request is contained: `ev_handler` gets a bool, and a rejected body has changed nothing. -/
structure Contained (statements : Statements) (c : Cajun) (actions : List (HttpdAction Callback))
    (method : Method) (url body : Bytes) (s : Server) : Prop where
  returns : Returns (handleRequest statements c actions method url body s).1
  unchanged : ∀ callback request, resolve actions method url body = some (callback, request) →
    ¬ Accepts c request.postDataRaw callback →
      (handleRequest statements c actions method url body s).2 = s

/-- A request is contained exactly when what its handler reads can be read: the body, if the handler
    gets so far, and the specifications of the devices it loads. -/
theorem bodies_exact (statements : Statements) (c : Cajun) (actions : List (HttpdAction Callback))
    (method : Method) (url body : Bytes) (s : Server) :
    Contained statements c actions method url body s ↔
      ∀ callback request, resolve actions method url body = some (callback, request) →
        CanRead statements c request s callback := by
  constructor
  · intro hcontained callback request hresolve
    exact (returns_run callback).mp ((handleRequest_found hresolve).1.mp hcontained.returns)
  · intro hread
    refine ⟨?_, fun callback request hresolve hrejected => ?_⟩
    · cases hresolve : resolve actions method url body with
      | none =>
          rw [handleRequest, hresolve]
          exact returns_ok false
      | some r =>
          obtain ⟨callback, request⟩ := r
          exact (handleRequest_found hresolve).1.mpr
            ((returns_run callback).mpr (hread callback request hresolve))
    · rw [(handleRequest_found hresolve).2]
      exact run_unchanged callback hrejected

/-- The server with a device 5, its specifications empty, and without live devices. -/
def storedServer : Server where
  devices := ⟨(∅ : Std.ExtTreeMap Int32 Row).insert 5 fun _ => wholeText [], 6⟩
  users := ⟨∅, 1⟩
  live _ := none

/-- A device's document with a port that is no object. -/
def numberPortDoc : Object := [("specifications", .object [("ports", .array [.number 1])])]

theorem storedServer_legible {i : Int32} {row : Row} (h : storedServer.devices.rows[i]? = some row) :
    Legible (Cajun.knowing [numberPortDoc, []]) row := by
  have hrow : row = fun _ => wholeText [] := by
    have h : ((∅ : Std.ExtTreeMap Int32 Row).insert 5 fun _ => wholeText [])[i]? = some row := h
    rw [Std.ExtTreeMap.getElem?_insert] at h
    split at h
    · exact (Option.some.inj h).symm
    · simp at h
  have hread : (Cajun.knowing [numberPortDoc, []]).read (wholeText []) = .ok [] := rfl
  rw [hrow]
  exact (returns_fromJson _ _).mpr ⟨[], hread, _, rfl⟩

/-- The device is put with a port that is no object. All that is stored can be read. -/
theorem not_contained_numberPort : ¬ ∀ (statements : Statements) (c : Cajun) (actions : Actions)
    (method : Method) (url body : Bytes) (s : Server), registerHttpdActions = some actions →
    (∀ (i : Int32) (row : Row), s.devices.rows[i]? = some row → Legible c row) →
      Contained statements c actions.httpd method url body s := by
  intro h
  have hcontained := h {} (Cajun.knowing [numberPortDoc, []]) apiActions .put (ascii "/api/devices/5")
    (wholeText numberPortDoc) storedServer registerHttpdActions_eq fun _ _ => storedServer_legible
  have hfound : (resolve apiActions.httpd .put (ascii "/api/devices/5") (wholeText numberPortDoc)).map
      (fun r => (r.1, r.2.method, r.2.paramInt "id", r.2.postDataRaw)) =
        some (Callback.devices, .put, 5, wholeText numberPortDoc) := by decide
  obtain ⟨⟨callback, request⟩, hresolve, hrequest⟩ := Option.map_eq_some_iff.mp hfound
  simp only [Prod.mk.injEq] at hrequest
  obtain ⟨rfl, hmethod, hid, hbody⟩ := hrequest
  have hcan : CanRead {} (Cajun.knowing [numberPortDoc, []]) request storedServer .devices :=
    (returns_run .devices).mp ((handleRequest_found hresolve).1.mp hcontained.returns)
  obtain ⟨doc, hdoc, hobjects⟩ := hcan.body (Or.inr ⟨hmethod, by rw [hid]; decide⟩)
  have hread : (Cajun.knowing [numberPortDoc, []]).read (wholeText numberPortDoc) =
      .ok numberPortDoc := rfl
  rw [hbody, hread] at hdoc
  obtain ⟨o, ho⟩ := hobjects (.number 1) (Except.ok.inj hdoc ▸ List.mem_singleton.mpr rfl)
  cases ho

end Httpd

end Domoio
