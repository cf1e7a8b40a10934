import Domoio.Models

/-
  File:      Domoio/Httpd.lean
  Subject:   The actions of the HTTP API that read and write stored models (include/httpd.h,
             src/httpd/request.cc, src/httpd/actions).

  An action gets a request whose URL has been matched: the parameters are the digits the route's
  groups caught. It reads and writes one table. A return value of false is a reply without a
  response; an exception (a text the JSON reader rejects) leaves the table as it was.

  The actions for devices and users are one definition (`resourceWith`), used at the two models. What
  the actions have the database do is their argument (`Queries`): here every statement is carried out
  (`carriedOut`), and Requests.lean has the same actions over statements that can fail.
-/

namespace Domoio

open Lib

namespace Httpd

/-- `Request::method`, as the `is_` predicates tell methods apart. -/
inductive Method where
  | get
  | post
  | put
  | options
  | delete
  | other
  deriving DecidableEq, Repr

/-- `Request`: a parameter the URL does not have is empty. -/
structure Request where
  method : Method
  params : String → Bytes
  postDataRaw : Bytes := []

/-- `Request::param_int`. -/
def Request.paramInt (request : Request) (name : String) : Int32 := atoi (request.params name)

/-- What an action leaves: the table, and the response where it returned true. -/
structure Reply where
  table : Table
  responseData : Option Bytes := none

/-- `ModelsCollection::all`: every row is loaded into a new model. -/
def all {ρ T : Type} (M : ModelClass ρ T) (c : Cajun) (blank : T) (table : Table) :
    Except JsonException (List T) :=
  table.rows.toList.mapM fun p => M.loadFromRes c p.1 p.2 blank

/-- What an action has the database do for a model: `ModelsCollection::all`, `Model::load_from_db` and
    `Model::save`. -/
structure Queries (ρ T : Type) where
  all : Cajun → T → Table → Except JsonException (List T)
  load : Cajun → Table → Int32 → T → Except JsonException (T × Bool)
  save : Cajun → ρ → Table → T → Table × T × Bool

/-- The queries of a model where the database carries out every statement. -/
def carriedOut {ρ T : Type} (M : ModelClass ρ T) : Queries ρ T where
  all := all M
  load := M.loadFromDb
  save := M.save

namespace actions

/-- The action for a model: index, show, create and update. `blank` is a new object of the class. -/
def resourceWith {ρ T : Type} (M : ModelClass ρ T) (queries : Queries ρ T) (blank : T) (c : Cajun)
    (env : ρ) (table : Table) (request : Request) : Except JsonException Reply :=
  let id := request.paramInt "id"
  if request.method = .get ∧ id = 0 then do
    let collection ← queries.all c blank table
    let array := collection.map fun t => .object (M.toJsonObject env t)
    return { table, responseData := some (c.writeArray array) }
  else if request.method = .get ∧ id ≠ 0 then do
    -- the result of the load is not looked at
    let (t, _) ← queries.load c table id blank
    return { table, responseData := some (M.toJson c env t) }
  else if request.method = .post ∧ id = 0 then do
    let t ← M.fromJson c request.postDataRaw blank
    let (table, t, _) := queries.save c env table t
    return { table, responseData := some (M.toJson c env t) }
  else if request.method = .put ∧ id ≠ 0 then do
    let (t, _) ← queries.load c table id blank
    let t ← M.fromJson c request.postDataRaw t
    let (table, t, _) := queries.save c env table t
    return { table, responseData := some (M.toJson c env t) }
  else return { table }

/-- What `actions::ports` does once the device is loaded. -/
def portsLoadedWith (queries : Queries Registry Device) (c : Cajun) (env : Registry) (table : Table)
    (request : Request) (device : Device) : Except JsonException Reply := do
  match request.method with
  | .get =>
      match device.getPort (request.paramInt "id") with
      | none => return { table }
      | some (_, port) => return { table, responseData := some (Port.model.toJson c env port) }
  | .post =>
      let port ← Port.model.fromJson c request.postDataRaw {}
      let (table, _, _) := queries.save c env table (device.addPort port)
      return { table, responseData := some (Port.model.toJson c env port) }
  | .put =>
      match device.getPort (request.paramInt "id") with
      | none => return { table }
      | some (key, port) =>
          -- the port is changed where it is, under the key it has
          let port ← Port.model.fromJson c request.postDataRaw port
          let (table, _, _) := queries.save c env table (device.putPort key port)
          return { table, responseData := some (Port.model.toJson c env port) }
  | .options | .delete | .other => return { table }

/-- `actions::ports`, on the table of the devices. -/
def portsWith (queries : Queries Registry Device) (c : Cajun) (env : Registry) (table : Table)
    (request : Request) : Except JsonException Reply :=
  (queries.load c table (request.paramInt "device_id") {}).bind fun r =>
    if r.2 then portsLoadedWith queries c env table request r.1 else .ok { table }

/-- The action for a model whose statements are all carried out. -/
def resource {ρ T : Type} (M : ModelClass ρ T) (blank : T) (c : Cajun) (env : ρ) (table : Table)
    (request : Request) : Except JsonException Reply :=
  resourceWith M (carriedOut M) blank c env table request

/-- `actions::devices`, with all statements carried out. -/
def devices (c : Cajun) (env : Registry) (table : Table) (request : Request) :
    Except JsonException Reply :=
  resource Device.model {} c env table request

/-- `actions::users`, with all statements carried out. -/
def users (c : Cajun) (env : Registry) (table : Table) (request : Request) :
    Except JsonException Reply :=
  resource User.model {} c env table request

/-- `actions::ports`, with all statements carried out. -/
def ports (c : Cajun) (env : Registry) (table : Table) (request : Request) :
    Except JsonException Reply :=
  portsWith (carriedOut Device.model) c env table request

/-- What `ports` does once the device is loaded. -/
def portsLoaded (c : Cajun) (env : Registry) (table : Table) (request : Request)
    (device : Device) : Except JsonException Reply :=
  portsLoadedWith (carriedOut Device.model) c env table request device

end actions

end Httpd

end Domoio
