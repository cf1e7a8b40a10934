import Domoio.Httpd

/-
  File:      Domoio/Requests.lean
  Subject:   Sequences of requests to the HTTP API, whose statements can fail
             (include/data_mapper.h, src/httpd/actions).

  A query or a write that the database does not carry out makes `load_from_db`, `all` or `save`
  return false; the actions go on. Here they are over the queries of which some are carried out;
  `resourceWhen_succeeds` and `portsWhen_succeeds` say that with all of them they are the actions.
-/

namespace Domoio

open Lib

/-! ## 1. Statements that can fail -/

/-- Which statements of a request the database carries out. -/
structure Statements where
  select : Bool := true
  write : Bool := true

namespace ModelClass

variable {ρ T : Type} (M : ModelClass ρ T)

/-- `Model::load_from_db`, whose query can fail. -/
def loadWhen (statements : Statements) (c : Cajun) (table : Table) (id : Int32) (t : T) :
    Except JsonException (T × Bool) :=
  if statements.select then M.loadFromDb c table id t else .ok (t, false)

/-- `Model::save`, whose statement can fail. An insert needs an id that no row has. -/
def saveWhen (statements : Statements) (c : Cajun) (env : ρ) (table : Table) (t : T) :
    Table × T × Bool :=
  let t' := M.beforeSave c env t
  if statements.write ∧ (M.getId t' ≠ 0 ∨ table.nextId ∉ table.rows) then M.save c env table t
  else (table, t', false)

end ModelClass

namespace Httpd

/-- `ModelsCollection::all`, whose query can fail. -/
def allWhen {ρ T : Type} (M : ModelClass ρ T) (statements : Statements) (c : Cajun) (blank : T)
    (table : Table) : Except JsonException (List T) :=
  if statements.select then all M c blank table else .ok []

/-- The queries of a model, of which the database carries out some. -/
def queriesWhen {ρ T : Type} (M : ModelClass ρ T) (statements : Statements) : Queries ρ T where
  all := allWhen M statements
  load := M.loadWhen statements
  save := M.saveWhen statements

namespace actions

/-- The action for a model. -/
def resourceWhen {ρ T : Type} (M : ModelClass ρ T) (blank : T) (statements : Statements)
    (c : Cajun) (env : ρ) (table : Table) (request : Request) : Except JsonException Reply :=
  resourceWith M (queriesWhen M statements) blank c env table request

/-- `actions::ports` once the device is loaded. -/
def portsLoadedWhen (statements : Statements) (c : Cajun) (env : Registry) (table : Table)
    (request : Request) (device : Device) : Except JsonException Reply :=
  portsLoadedWith (queriesWhen Device.model statements) c env table request device

/-- `actions::ports`. -/
def portsWhen (statements : Statements) (c : Cajun) (env : Registry) (table : Table)
    (request : Request) : Except JsonException Reply :=
  portsWith (queriesWhen Device.model statements) c env table request

section Succeed

variable {ρ T : Type} (M : ModelClass ρ T) {c : Cajun} {table : Table}

theorem saveWhen_succeeds (hnew : table.nextId ∉ table.rows) (env : ρ) (t : T) :
    M.saveWhen {} c env table t = M.save c env table t :=
  if_pos ⟨rfl, Or.inr hnew⟩

/-- Where all statements succeed the actions are those of the API. -/
theorem resourceWhen_succeeds (hnew : table.nextId ∉ table.rows) (blank : T) (env : ρ)
    (request : Request) :
    resourceWhen M blank {} c env table request = resource M blank c env table request := by
  simp only [resourceWhen, resource, resourceWith, queriesWhen, carriedOut, saveWhen_succeeds M hnew]
  rfl

theorem portsWhen_succeeds (hnew : table.nextId ∉ table.rows) (env : Registry)
    (request : Request) : portsWhen {} c env table request = ports c env table request := by
  simp only [portsWhen, ports, portsWith, portsLoadedWith, queriesWhen, carriedOut,
    saveWhen_succeeds Device.model hnew]
  rfl

end Succeed

end actions

end Httpd

/-! ## 2. The server -/

/-- The two tables. -/
structure Database where
  devices : Table
  users : Table

inductive Action where
  | devices
  | users
  | ports

/-- A request with its action, the live devices it meets and the statements that succeed. -/
structure Call where
  action : Action
  request : Httpd.Request
  env : Registry
  statements : Statements := {}

/-- What a request leaves of the table it is about, and its response. -/
def Database.reply (db : Database) (put : Table → Database) :
    Except JsonException Httpd.Reply → Database × Except JsonException (Option Bytes)
  | .ok reply => (put reply.table, .ok reply.responseData)
  | .error e => (db, .error e)

/-- The server's answer to a request. -/
def Database.serve (c : Cajun) (db : Database) (call : Call) :
    Database × Except JsonException (Option Bytes) :=
  match call.action with
  | .devices => db.reply (fun table => { db with devices := table })
      (Httpd.actions.resourceWhen Device.model {} call.statements c call.env db.devices call.request)
  | .users => db.reply (fun table => { db with users := table })
      (Httpd.actions.resourceWhen User.model {} call.statements c call.env db.users call.request)
  | .ports => db.reply (fun table => { db with devices := table })
      (Httpd.actions.portsWhen call.statements c call.env db.devices call.request)

end Domoio
