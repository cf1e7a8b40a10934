import Domoio.Lib.OrderedMap
import Domoio.Handlers

/-
  File:      Domoio/Accesses.lean
  Subject:   The rows, live devices and ports that a request reads, changes and adds.

  The actions once more, over operations that write down what they have to do with. Without the log
  they are the programs of the handlers (`erase_handleRequest`), and what is not in the log stays as
  it was (`keeps_handleRequest`).
-/

namespace Domoio

open Lib

namespace Httpd

/-! ## 1. Programs with a log -/

/-- A row of a table, a live device, or a port of the device that the request is about. -/
inductive Entity where
  | row (name : TableName) (id : Int32)
  | live (id : Int32)
  | port (id : Int32)

def Entity.id : Entity → Int32
  | row _ id | live id | port id => id

/-- What is done with it: it is there and is read or changed, or it is new. -/
inductive Use where
  | reads
  | changes
  | adds
  deriving DecidableEq

structure Access where
  use : Use
  entity : Entity

/-- A program that writes down its accesses, also those before an exception. -/
def Traced (α : Type) : Type := Server → (Except JsonException α × Server) × List Access

namespace Traced

variable {α β : Type}

/-- What follows an exception is left out. -/
def bind (x : Traced α) (f : α → Traced β) : Traced β := fun s =>
  match x s with
  | ((.ok a, s), log) => ((f a s).1, log ++ (f a s).2)
  | ((.error e, s), log) => ((.error e, s), log)

instance : Monad Traced where
  pure a s := ((.ok a, s), [])
  bind := Traced.bind

theorem bind_ok {x : Traced α} {a : α} {s s' : Server} {log : List Access}
    (h : x s = ((.ok a, s'), log)) (f : α → Traced β) :
    (x >>= f) s = ((f a s').1, log ++ (f a s').2) := by
  rw [show (x >>= f) s = Traced.bind x f s from rfl, Traced.bind, h]

theorem bind_error {x : Traced α} {e : JsonException} {s s' : Server} {log : List Access}
    (h : x s = ((.error e, s'), log)) (f : α → Traced β) :
    (x >>= f) s = ((.error e, s'), log) := by
  rw [show (x >>= f) s = Traced.bind x f s from rfl, Traced.bind, h]

/-- The program without its log. -/
def erase (x : Traced α) : Program α := fun s => (x s).1

/-- A program with the accesses it makes. -/
def noting (log : Server → List Access) (p : Program α) : Traced α := fun s => (p s, log s)

/-- A program that has to do with no row, device or port. -/
def run (p : Program α) : Traced α := noting (fun _ => []) p

/-- An access of its own. -/
def note (use : Use) (entity : Entity) : Traced Unit := noting (fun _ => [⟨use, entity⟩]) (pure ())

/-- The row that `load_from_db` reads. -/
def found (name : TableName) (statements : Statements) (table : Table) (id : Int32) : List Access :=
  if statements.select = true ∧ id ∈ table.rows then [⟨.reads, .row name id⟩] else []

/-- `Model::load_from_db`. -/
def load {T : Type} (M : ModelClass Registry T) (name : TableName) (statements : Statements)
    (c : Cajun) (id : Int32) (blank : T) : Traced (T × Bool) :=
  noting (fun s => found name statements (s.table name) id)
    fun s => (M.loadWhen statements c (s.table name) id blank, s)

/-- The rows that `all` reads. -/
def listed (name : TableName) (statements : Statements) (table : Table) : List Access :=
  if statements.select = true then table.rows.toList.map fun p => ⟨.reads, .row name p.1⟩ else []

/-- `ModelsCollection::all`. -/
def loadAll {T : Type} (M : ModelClass Registry T) (name : TableName) (statements : Statements)
    (c : Cajun) (blank : T) : Traced (List T) :=
  noting (fun s => listed name statements (s.table name))
    fun s => (allWhen M statements c blank (s.table name), s)

/-- What `Model::save` does to the table: a row is updated, or the next one is inserted. -/
def saved (name : TableName) (statements : Statements) (table : Table) (id : Int32) : List Access :=
  if statements.write = false then []
  else if id ≠ 0 then if id ∈ table.rows then [⟨.changes, .row name id⟩] else []
  else if table.nextId ∈ table.rows then []
  else [⟨.adds, .row name table.nextId⟩]

/-- `Model::save`. -/
def save {T : Type} (M : ModelClass Registry T) (name : TableName) (statements : Statements)
    (c : Cajun) (t : T) : Traced T :=
  noting (fun s => saved name statements (s.table name) (M.getId (M.beforeSave c s.live t)))
    (Program.save M name statements c t)

/-- The JSON of a device shows the live device of its id; a user's shows none. -/
def showing (name : TableName) (ids : List Int32) : Traced Unit :=
  noting (fun s =>
      match name with
      | .devices => (ids.filter fun id => (s.live id).isSome).map fun id => ⟨.reads, .live id⟩
      | .users => [])
    (pure ())

/-- The live devices after `set_port`. -/
def setServer (deviceId : Int32) (s : Server) : Traced Unit :=
  noting (fun _ => [⟨.changes, .live deviceId⟩]) (Program.setServer s)

end Traced

/-! ## 2. The actions -/

namespace traced

/-- A port is put into a device: over one with its id, or as a new one. -/
def storing (device : Device) (id : Int32) : Traced Unit :=
  Traced.note (if (device.getPort id).isSome then .changes else .adds) (.port id)

/-- The action for a model, as `programs.resource`. -/
def resource {T : Type} (M : ModelClass Registry T) (blank : T) (name : TableName)
    (statements : Statements) (c : Cajun) (request : Request) : Traced (Option Bytes) := do
  let id := request.paramInt "id"
  let s ← Traced.run Program.read
  if request.method = .get ∧ id = 0 then
    let collection ← Traced.loadAll M name statements c blank
    Traced.showing name (collection.map M.getId)
    let array := collection.map fun t => .object (M.toJsonObject s.live t)
    return some (c.writeArray array)
  else if request.method = .get ∧ id ≠ 0 then
    let r ← Traced.load M name statements c id blank
    Traced.showing name [M.getId r.1]
    return some (M.toJson c s.live r.1)
  else if request.method = .post ∧ id = 0 then
    let t ← Traced.run (Program.lift (M.fromJson c request.postDataRaw blank))
    let t ← Traced.save M name statements c t
    Traced.showing name [M.getId t]
    return some (M.toJson c s.live t)
  else if request.method = .put ∧ id ≠ 0 then
    let r ← Traced.load M name statements c id blank
    let t ← Traced.run (Program.lift (M.fromJson c request.postDataRaw r.1))
    let t ← Traced.save M name statements c t
    Traced.showing name [M.getId t]
    return some (M.toJson c s.live t)
  else return none

/-- What `actions::ports` does once the device is loaded. -/
def portsLoaded (statements : Statements) (c : Cajun) (request : Request) (live : Registry)
    (device : Device) : Traced (Option Bytes) :=
  match request.method with
  | .get =>
      match device.getPort (request.paramInt "id") with
      | none => return none
      | some (_, port) => do
          Traced.note .reads (.port (request.paramInt "id"))
          return some (Port.model.toJson c live port)
  | .post => do
      let port ← Traced.run (Program.lift (Port.model.fromJson c request.postDataRaw {}))
      storing device port.id
      let _ ← Traced.save Device.model .devices statements c (device.addPort port)
      return some (Port.model.toJson c live port)
  | .put =>
      match device.getPort (request.paramInt "id") with
      | none => return none
      | some (key, port) => do
          Traced.note .reads (.port (request.paramInt "id"))
          let port ← Traced.run (Program.lift (Port.model.fromJson c request.postDataRaw port))
          storing device port.id
          let _ ← Traced.save Device.model .devices statements c (device.putPort key port)
          return some (Port.model.toJson c live port)
  | .options | .delete | .other => return none

/-- `actions::ports`, as `programs.ports`. -/
def ports (statements : Statements) (c : Cajun) (request : Request) : Traced (Option Bytes) := do
  let deviceId := request.paramInt "device_id"
  let s ← Traced.run Program.read
  let r ← Traced.load Device.model .devices statements c deviceId {}
  if r.2 = false then return none else portsLoaded statements c request s.live r.1

/-- `actions::set_port`, as `programs.setPort`. -/
def setPort (c : Cajun) (request : Request) : Traced (Option Bytes) := do
  let deviceId := request.paramInt "device_id"
  let portId := request.paramInt "id"
  let s ← Traced.run Program.read
  match s.live deviceId with
  | none => return none
  | some device =>
      Traced.note .reads (.live deviceId)
      match device.port portId with
      | none => return none
      | some port =>
          Traced.note .reads (.port portId)
          if request.postDataRaw = [] then return none
          else
            let doc ← Traced.run (Program.lift (c.read request.postDataRaw))
            Traced.note .changes (.port portId)
            Traced.setServer deviceId (s.setPort deviceId device port doc)
            return some (ascii "OK")

end traced

/-- The callback of an action. -/
def Callback.traced (statements : Statements) (c : Cajun) (request : Request) :
    Callback → Traced (Option Bytes)
  | .devices => traced.resource Device.model {} .devices statements c request
  | .users => traced.resource User.model {} .users statements c request
  | .ports => traced.ports statements c request
  | .setPort => traced.setPort c request

/-- What `handle_request` makes of a handler's run. -/
def answer (x : Traced (Option Bytes)) : Traced Bool := do
  return (← x).isSome

/-- `handle_request`. -/
def tracedRequest (statements : Statements) (c : Cajun) (actions : List (HttpdAction Callback))
    (method : Method) (url postDataRaw : Bytes) : Traced Bool := do
  match resolve actions method url postDataRaw with
  | none => return false
  | some (callback, request) => answer (callback.traced statements c request)

/-! ## 3. Without the log -/

namespace Traced

variable {α β : Type}

@[simp] theorem erase_pure (a : α) : (pure a : Traced α).erase = pure a := rfl

@[simp] theorem erase_noting (log : Server → List Access) (p : Program α) :
    (noting log p).erase = p := rfl

@[simp] theorem erase_bind (x : Traced α) (f : α → Traced β) :
    (x >>= f).erase = x.erase >>= fun a => (f a).erase := by
  funext s
  rcases hx : x s with ⟨⟨result, s'⟩, log⟩
  have herase : x.erase s = (result, s') := congrArg Prod.fst hx
  cases result with
  | ok a => rw [Program.bind_ok herase, erase, bind_ok hx, erase]
  | error e => rw [Program.bind_error herase, erase, bind_error hx]

/-- Where a load is next, the program meets the table of the moment. -/
theorem erase_load {T : Type} (M : ModelClass Registry T) (name : TableName)
    (statements : Statements) (c : Cajun) (id : Int32) (blank : T) (f : T × Bool → Program β)
    (s : Server) : ((load M name statements c id blank).erase >>= f) s =
      (Program.lift (M.loadWhen statements c (s.table name) id blank) >>= f) s := rfl

@[simp] theorem pure_apply (a : α) (s : Server) : (pure a : Traced α) s = ((.ok a, s), []) := rfl

@[simp] theorem bind_read (f : Server → Traced α) (s : Server) :
    (run Program.read >>= f) s = f s s := rfl

@[simp] theorem bind_note (use : Use) (entity : Entity) (f : Unit → Traced α) (s : Server) :
    (note use entity >>= f) s = ((f () s).1, ⟨use, entity⟩ :: (f () s).2) := rfl

@[simp] theorem bind_lift_ok (a : α) (f : α → Traced β) (s : Server) :
    (run (Program.lift (.ok a)) >>= f) s = f a s := rfl

@[simp] theorem bind_lift_error (e : JsonException) (f : α → Traced β) (s : Server) :
    (run (Program.lift (.error e)) >>= f) s = ((.error e, s), []) := rfl

end Traced

variable {statements : Statements} {c : Cajun} {request : Request}

theorem erase_resource {T : Type} (M : ModelClass Registry T) (blank : T) (name : TableName) :
    (traced.resource M blank name statements c request).erase =
      programs.resource M blank name statements c request := by
  funext s
  unfold traced.resource programs.resource
  simp only [Traced.run, Traced.erase_bind, Traced.erase_noting, Program.bind_read]
  split
  · simp only [Traced.erase_bind, Traced.erase_pure]
    rfl
  split
  · simp only [Traced.erase_bind, Traced.erase_pure]
    rfl
  split
  · simp only [Traced.erase_bind, Traced.erase_pure]
    rfl
  split
  · simp only [Traced.erase_bind, Traced.erase_pure]
    rfl
  · rfl

theorem erase_ports : (traced.ports statements c request).erase =
    programs.ports statements c request := by
  funext s
  unfold traced.ports programs.ports
  simp only [Traced.run, Traced.erase_bind, Traced.erase_noting, Program.bind_read]
  rw [Traced.erase_load]
  refine congrFun (congrArg (Program.lift _ >>= ·) (funext fun r => ?_)) s
  by_cases hloaded : r.2 = false
  · rw [if_pos hloaded, if_pos hloaded]
    rfl
  rw [if_neg hloaded, if_neg hloaded]
  unfold traced.portsLoaded
  cases request.method with
  | get =>
      cases r.1.getPort (request.paramInt "id") with
      | none => rfl
      | some p => rfl
  | post =>
      simp only [Traced.erase_bind]
      rfl
  | put =>
      cases r.1.getPort (request.paramInt "id") with
      | none => rfl
      | some p =>
          simp only [Traced.erase_bind]
          rfl
  | options | delete | other => rfl

theorem erase_setPort : (traced.setPort c request).erase = programs.setPort c request := by
  funext s
  unfold traced.setPort programs.setPort
  simp only [Traced.run, Traced.erase_bind, Traced.erase_noting, Program.bind_read]
  cases s.live (request.paramInt "device_id") with
  | none => rfl
  | some device =>
      dsimp only
      cases device.port (request.paramInt "id") with
      | none => rfl
      | some port =>
          dsimp only
          by_cases hbody : request.postDataRaw = []
          · simp only [if_pos hbody, Traced.erase_bind]
            rfl
          · simp only [if_neg hbody, Traced.erase_bind]
            rfl

/-- The handlers with a log do what the handlers do. -/
theorem erase_tracedRequest (actions : List (HttpdAction Callback)) (method : Method)
    (url postDataRaw : Bytes) : (tracedRequest statements c actions method url postDataRaw).erase =
      handleRequest statements c actions method url postDataRaw := by
  have hcallback : ∀ (callback : Callback) (request : Request),
      (callback.traced statements c request).erase = callback.run statements c request := by
    intro callback request
    cases callback with
    | devices => exact erase_resource Device.model {} .devices
    | users => exact erase_resource User.model {} .users
    | ports => exact erase_ports
    | setPort => exact erase_setPort
  unfold tracedRequest handleRequest
  cases resolve actions method url postDataRaw with
  | none => rfl
  | some found => simp only [answer, Traced.erase_bind, hcallback, Traced.erase_pure]

/-! ## 4. What is not in the log -/

/-- What is not written down as changed or added is as it was. -/
structure Kept (log : List Access) (s s' : Server) : Prop where
  rows : ∀ name id, (∀ a ∈ log, a.entity = .row name id → a.use = .reads) →
    (s'.table name).rows[id]? = (s.table name).rows[id]?
  live : ∀ id, (∀ a ∈ log, a.entity = .live id → a.use = .reads) → s'.live id = s.live id

theorem Kept.refl (log : List Access) (s : Server) : Kept log s s := ⟨fun _ _ _ => rfl, fun _ _ => rfl⟩

theorem Kept.trans {log log' : List Access} {s₁ s₂ s₃ : Server} (h : Kept log s₁ s₂)
    (h' : Kept log' s₂ s₃) : Kept (log ++ log') s₁ s₃ where
  rows name id hid := by
    obtain ⟨hlog, hlog'⟩ := List.forall_mem_append.mp hid
    exact (h'.rows name id hlog').trans (h.rows name id hlog)
  live id hid := by
    obtain ⟨hlog, hlog'⟩ := List.forall_mem_append.mp hid
    exact (h'.live id hlog').trans (h.live id hlog)

/-- A program changes nothing but what is in its log. -/
def Keeps {α : Type} (x : Traced α) : Prop := ∀ s, Kept (x s).2 s (x s).1.2

namespace Keeps

variable {α β : Type}

theorem pure (a : α) : Keeps (Pure.pure a : Traced α) := fun s => Kept.refl [] s

theorem bind {x : Traced α} {f : α → Traced β} (hx : Keeps x) (hf : ∀ a, Keeps (f a)) :
    Keeps (x >>= f) := by
  intro s
  rcases h : x s with ⟨⟨result, s'⟩, log⟩
  have hkept := hx s
  rw [h] at hkept
  cases result with
  | ok a =>
      rw [Traced.bind_ok h]
      exact hkept.trans (hf a s')
  | error e =>
      rw [Traced.bind_error h]
      exact hkept

/-- A program that leaves the server as it was. -/
theorem noting {log : Server → List Access} {p : Program α} (h : ∀ s, (p s).2 = s) :
    Keeps (Traced.noting log p) := by
  intro s
  have hsame : (Traced.noting log p s).1.2 = s := h s
  rw [hsame]
  exact Kept.refl _ s

end Keeps

section Save

variable {T : Type} {M : ModelClass Registry T} {table table' : Table} {t t' : T} {id : Int32}

/-- An update is of the row with the object's id, if there is one. -/
theorem update_row (h : M.update table t = some table')
    (hid : M.getId t ∈ table.rows → id ≠ M.getId t) : table'.rows[id]? = table.rows[id]? := by
  unfold ModelClass.update at h
  obtain ⟨columns, -, htable⟩ := Option.bind_eq_some_iff.mp h
  cases htable
  cases hrow : table.rows[M.getId t]? with
  | none => rfl
  | some row =>
      have hne : id ≠ M.getId t := hid (Std.ExtTreeMap.mem_iff_isSome_getElem?.mpr (by rw [hrow]; rfl))
      exact OrderedMap.getElem?_insert_ne hne

theorem create_row (h : M.create table t = some (table', t')) (hid : id ≠ table.nextId) :
    table'.rows[id]? = table.rows[id]? := by
  unfold ModelClass.create at h
  obtain ⟨columns, -, htable⟩ := Option.bind_eq_some_iff.mp h
  cases htable
  exact OrderedMap.getElem?_insert_ne hid

/-- A row that is neither updated nor inserted. -/
theorem saveWhen_row (name : TableName) (env : Registry)
    (hid : ∀ a ∈ Traced.saved name statements table (M.getId (M.beforeSave c env t)),
      a.entity = .row name id → a.use = .reads) :
    (M.saveWhen statements c env table t).1.rows[id]? = table.rows[id]? := by
  rw [ModelClass.saveWhen]
  split
  · next hwrite =>
    obtain ⟨hwrite, hnew⟩ := hwrite
    rw [Traced.saved, if_neg (by rw [hwrite]; decide)] at hid
    rw [ModelClass.save]
    by_cases hzero : M.getId (M.beforeSave c env t) ≠ 0
    · rw [if_pos hzero] at hid ⊢
      cases hupdate : M.update table (M.beforeSave c env t) with
      | none => rfl
      | some table' =>
          refine update_row hupdate fun hmem heq => ?_
          rw [if_pos hmem, ← heq] at hid
          cases hid _ List.mem_cons_self rfl
    · have hfree : table.nextId ∉ table.rows := hnew.resolve_left hzero
      rw [if_neg hzero, if_neg hfree] at hid
      rw [if_neg hzero]
      cases hcreate : M.create table (M.beforeSave c env t) with
      | none => rfl
      | some r =>
          refine create_row hcreate fun heq => ?_
          rw [← heq] at hid
          cases hid _ List.mem_cons_self rfl
  · rfl

end Save

namespace Keeps

variable {α : Type}

theorem run_lift (r : Except JsonException α) : Keeps (Traced.run (Program.lift r)) :=
  noting fun _ => rfl

theorem note (use : Use) (entity : Entity) : Keeps (Traced.note use entity) := noting fun _ => rfl

theorem showing (name : TableName) (ids : List Int32) : Keeps (Traced.showing name ids) :=
  noting fun _ => rfl

theorem load {T : Type} (M : ModelClass Registry T) (name : TableName) (id : Int32) (blank : T) :
    Keeps (Traced.load M name statements c id blank) := noting fun _ => rfl

theorem save {T : Type} (M : ModelClass Registry T) (name : TableName) (t : T) :
    Keeps (Traced.save M name statements c t) := by
  intro s
  constructor
  · intro other id hid
    cases name <;> cases other
    · exact saveWhen_row .devices s.live hid
    · rfl
    · rfl
    · exact saveWhen_row .users s.live hid
  · intro id hid
    cases name <;> rfl

end Keeps

theorem keeps_resource {T : Type} (M : ModelClass Registry T) (blank : T) (name : TableName) :
    Keeps (traced.resource M blank name statements c request) := by
  unfold traced.resource
  refine .bind (.noting fun _ => rfl) fun s => ?_
  split
  · exact .bind (.noting fun _ => rfl) fun _ => .bind (.showing name _) fun _ => .pure _
  split
  · exact .bind (.load M name _ blank) fun _ => .bind (.showing name _) fun _ => .pure _
  split
  · exact .bind (.run_lift _) fun t => .bind (.save M name t) fun _ =>
      .bind (.showing name _) fun _ => .pure _
  split
  · exact .bind (.load M name _ blank) fun _ => .bind (.run_lift _) fun t =>
      .bind (.save M name t) fun _ => .bind (.showing name _) fun _ => .pure _
  · exact .pure _

theorem keeps_ports : Keeps (traced.ports statements c request) := by
  unfold traced.ports
  refine .bind (.noting fun _ => rfl) fun s => .bind (.load Device.model .devices _ {}) fun r => ?_
  split
  · exact .pure _
  unfold traced.portsLoaded
  cases request.method with
  | get =>
      dsimp only
      cases r.1.getPort (request.paramInt "id") with
      | none => exact .pure _
      | some p => exact .bind (.note _ _) fun _ => .pure _
  | post =>
      exact .bind (.run_lift _) fun port => .bind (.note _ _) fun _ =>
        .bind (.save Device.model .devices _) fun _ => .pure _
  | put =>
      dsimp only
      cases r.1.getPort (request.paramInt "id") with
      | none => exact .pure _
      | some p =>
          exact .bind (.note _ _) fun _ => .bind (.run_lift _) fun port => .bind (.note _ _) fun _ =>
            .bind (.save Device.model .devices _) fun _ => .pure _
  | options | delete | other => exact .pure _

theorem keeps_setPort : Keeps (traced.setPort c request) := by
  intro s
  unfold traced.setPort
  rw [Traced.bind_read]
  cases hlive : s.live (request.paramInt "device_id") with
  | none => exact Kept.refl _ s
  | some device =>
      dsimp only
      rw [Traced.bind_note]
      cases hport : device.port (request.paramInt "id") with
      | none => exact Kept.refl _ s
      | some port =>
          dsimp only
          rw [Traced.bind_note]
          by_cases hbody : request.postDataRaw = []
          · rw [if_pos hbody]
            exact Kept.refl _ s
          rw [if_neg hbody]
          cases c.read request.postDataRaw with
          | error e => exact Kept.refl _ s
          | ok doc =>
              constructor
              · intro name id hid
                cases name <;> rfl
              · intro id hid
                refine Function.update_of_ne ?_ _ _
                rintro rfl
                have hlog : ∀ a ∈ [Access.mk .reads (.live (request.paramInt "device_id")),
                    ⟨.reads, .port (request.paramInt "id")⟩,
                    ⟨.changes, .port (request.paramInt "id")⟩,
                    ⟨.changes, .live (request.paramInt "device_id")⟩],
                    a.entity = .live (request.paramInt "device_id") → a.use = .reads := hid
                cases hlog ⟨.changes, .live (request.paramInt "device_id")⟩ (by simp) rfl

/-- A request leaves what is not in its log as it was. -/
theorem keeps_tracedRequest (actions : List (HttpdAction Callback)) (method : Method)
    (url postDataRaw : Bytes) :
    Keeps (tracedRequest statements c actions method url postDataRaw) := by
  unfold tracedRequest
  cases resolve actions method url postDataRaw with
  | none => exact .pure _
  | some found =>
      obtain ⟨callback, request⟩ := found
      unfold answer
      refine .bind ?_ fun _ => .pure _
      cases callback with
      | devices => exact keeps_resource Device.model {} .devices
      | users => exact keeps_resource User.model {} .users
      | ports => exact keeps_ports
      | setPort => exact keeps_setPort

/-! ## 5. Answers -/

theorem answer_log (x : Traced (Option Bytes)) (s : Server) : (answer x s).2 = (x s).2 := by
  rcases hx : x s with ⟨⟨result, s'⟩, log⟩
  cases result with
  | ok data => rw [answer, Traced.bind_ok hx, Traced.pure_apply, List.append_nil]
  | error e => rw [answer, Traced.bind_error hx]

theorem answer_eq (x : Traced (Option Bytes)) (s : Server) :
    (answer x s).1.1 = (x s).1.1.map Option.isSome := by
  rcases hx : x s with ⟨⟨result, s'⟩, log⟩
  cases result with
  | ok data =>
      rw [answer, Traced.bind_ok hx]
      rfl
  | error e =>
      rw [answer, Traced.bind_error hx]
      rfl

theorem answer_refused {x : Traced (Option Bytes)} {s : Server} :
    (answer x s).1.1 = .ok false ↔ (x s).1.1 = .ok none := by
  rw [answer_eq]
  cases (x s).1.1 with
  | error e => simp [Except.map]
  | ok data => cases data <;> simp [Except.map]

theorem answer_answered {x : Traced (Option Bytes)} {s : Server} :
    (answer x s).1.1 = .ok true ↔ ∃ data, (x s).1.1 = .ok (some data) := by
  rw [answer_eq]
  cases (x s).1.1 with
  | error e => simp [Except.map]
  | ok data => cases data <;> simp [Except.map]

end Httpd

end Domoio
