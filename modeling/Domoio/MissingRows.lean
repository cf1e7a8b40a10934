import Domoio.Persistence
import Domoio.Requests

/-
  File:      Domoio/MissingRows.lean
  Subject:   Requests of the HTTP API for a row that is not there.

  The actions for devices and users do not look at the result of `load_from_db`: the object stays the
  blank one, of id 0. A GET shows it, and a PUT saves it, which for an object of id 0 is an insert:
  on a missing row it is the POST (`put_missing`). `missing_refused_iff` says that the only GET or PUT
  that is refused is the PUT on id 0, for which `is_update` has no branch.
-/

namespace Domoio

open Lib

namespace Httpd.actions

/-! ## 1. One action -/

section Resource

variable {ρ T : Type} (M : ModelClass ρ T) {blank : T} {statements : Statements} {c : Cajun} {env : ρ}
  {table : Table} {request : Request}

/-- The request for a new row with the same body. -/
def createRequest (request : Request) : Request :=
  { method := .post, params := fun _ => [], postDataRaw := request.postDataRaw }

@[simp] theorem createRequest_id : (createRequest request).paramInt "id" = 0 := rfl

/-- A load of a missing row, whether its query is carried out or not. -/
theorem loadWhen_missing {id : Int32} (h : table.rows[id]? = none) (t : T) :
    M.loadWhen statements c table id t = .ok (t, false) := by
  unfold ModelClass.loadWhen
  split
  · rw [ModelClass.loadFromDb, h]
  · rfl

/-- A GET of a missing row shows the blank object. -/
theorem get_missing (hm : request.method = .get) (hid : request.paramInt "id" ≠ 0)
    (h : table.rows[request.paramInt "id"]? = none) :
    resourceWhen M blank statements c env table request =
      .ok { table, responseData := some (M.toJson c env blank) } := by
  simp [resourceWhen, resourceWith, queriesWhen, hm, hid, loadWhen_missing M h]

/-- A PUT of a missing row is the POST. -/
theorem put_missing (hm : request.method = .put) (hid : request.paramInt "id" ≠ 0)
    (h : table.rows[request.paramInt "id"]? = none) :
    resourceWhen M blank statements c env table request =
      resourceWhen M blank statements c env table (createRequest request) := by
  have hpost : (createRequest request).method = .post := rfl
  simp [resourceWhen, resourceWith, queriesWhen, hm, hid, loadWhen_missing M h, hpost]
  rfl

/-- Of the GET and PUT requests, those that are answered with a failure. -/
theorem resource_refused_iff (hm : request.method = .get ∨ request.method = .put) :
    resourceWhen M blank statements c env table request = .ok { table } ↔
      request.method = .put ∧ request.paramInt "id" = 0 := by
  rcases hm with hm | hm
  · refine iff_of_false ?_ (by simp [hm])
    by_cases hid : request.paramInt "id" = 0
    · cases hall : allWhen M statements c blank table <;>
        simp [resourceWhen, resourceWith, queriesWhen, hm, hid, hall, bind, Except.bind, pure,
          Except.pure]
    · cases hload : M.loadWhen statements c table (request.paramInt "id") blank <;>
        simp [resourceWhen, resourceWith, queriesWhen, hm, hid, hload, bind, Except.bind, pure,
          Except.pure]
  · by_cases hid : request.paramInt "id" = 0
    · refine iff_of_true ?_ ⟨hm, hid⟩
      simp [resourceWhen, resourceWith, hm, hid, pure, Except.pure]
    · refine iff_of_false ?_ fun h => hid h.2
      cases hload : M.loadWhen statements c table (request.paramInt "id") blank with
      | error e => simp [resourceWhen, resourceWith, queriesWhen, hm, hid, hload, bind, Except.bind]
      | ok r =>
          cases hbody : M.fromJson c request.postDataRaw r.1 <;>
            simp [resourceWhen, resourceWith, queriesWhen, hm, hid, hload, hbody, bind, Except.bind,
              pure, Except.pure]

end Resource

end Httpd.actions

/-! ## 2. In the server -/

/-- The table an action is about. -/
def Database.tableOf (db : Database) : Action → Table
  | .users => db.users
  | .devices | .ports => db.devices

/-- A GET or a PUT on `/api/devices/:id` or `/api/users/:id`. -/
structure ShowOrUpdate (call : Call) : Prop where
  action : call.action = .devices ∨ call.action = .users
  method : call.request.method = .get ∨ call.request.method = .put

/-- The id of the request has no row. -/
def Missing (db : Database) (call : Call) : Prop :=
  (db.tableOf call.action).rows[call.request.paramInt "id"]? = none

/-- The action returns false, and the tables are as they were. -/
def FailsUnchanged (c : Cajun) (db : Database) (call : Call) : Prop :=
  db.serve c call = (db, .ok none)

/-- A reply without a response, the table unchanged. -/
theorem reply_refused {db : Database} (put : Table → Database) {table : Table}
    (hput : ∀ t, put t = db ↔ t = table) (r : Except JsonException Httpd.Reply) :
    db.reply put r = (db, .ok none) ↔ r = .ok { table } := by
  constructor
  · intro h
    cases r with
    | error e => cases h
    | ok reply =>
        obtain ⟨htable, hdata⟩ := Prod.mk.inj h
        have hsame : reply.table = table := (hput _).mp htable
        obtain ⟨table', data⟩ := reply
        cases hsame
        cases hdata
        rfl
  · intro h
    rw [h, Database.reply, (hput table).mpr rfl]

variable {c : Cajun} {db : Database} {call : Call}

/-- A request is answered with a failure, and changes nothing, exactly when it is a PUT on id 0. -/
theorem failsUnchanged_iff (h : ShowOrUpdate call) :
    FailsUnchanged c db call ↔
      call.request.method = .put ∧ call.request.paramInt "id" = 0 := by
  unfold FailsUnchanged Database.serve
  rcases h.action with ha | ha
  · have hput : ∀ t, { db with devices := t } = db ↔ t = db.devices := fun t =>
      ⟨fun heq => congrArg Database.devices heq, fun heq => by rw [heq]⟩
    rw [ha]
    exact (reply_refused _ hput _).trans (Httpd.actions.resource_refused_iff _ h.method)
  · have hput : ∀ t, { db with users := t } = db ↔ t = db.users := fun t =>
      ⟨fun heq => congrArg Database.users heq, fun heq => by rw [heq]⟩
    rw [ha]
    exact (reply_refused _ hput _).trans (Httpd.actions.resource_refused_iff _ h.method)

/-- Of the requests for a missing row only the PUT on id 0 fails without touching the database: the
    GET on 0 is the index, every other GET shows a blank object, every other PUT is a POST. -/
theorem missing_refused_iff (c : Cajun) (db : Database) (h : ShowOrUpdate call) :
    (Missing db call → FailsUnchanged c db call) ↔
      (Missing db call → call.request.method = .put ∧ call.request.paramInt "id" = 0) :=
  imp_congr_right fun _ => failsUnchanged_iff h

/-! ## 3. A user that is not there -/

/-- The body of a request for a user. -/
def strangerDoc : Object := [("name", .string (ascii "eve"))]

/-- A PUT on `/api/users/5`. -/
def strangerCall : Call where
  action := .users
  request := { method := .put, params := fun _ => ascii "5", postDataRaw := wholeText strangerDoc }
  env _ := none

def emptyDatabase : Database := ⟨⟨∅, 1⟩, ⟨∅, 1⟩⟩

theorem missing_refused_iff_stranger :
    (Missing emptyDatabase strangerCall →
        FailsUnchanged (Cajun.knowing [strangerDoc]) emptyDatabase strangerCall) ↔
      (Missing emptyDatabase strangerCall →
        strangerCall.request.method = .put ∧ strangerCall.request.paramInt "id" = 0) :=
  missing_refused_iff (Cajun.knowing [strangerDoc]) emptyDatabase ⟨Or.inr rfl, Or.inr rfl⟩

/-- It is answered with the row it has inserted. -/
theorem not_refused_stranger :
    ¬ ∀ (c : Cajun) (db : Database) (call : Call) (doc : Object), ShowOrUpdate call →
      Missing db call → c.read call.request.postDataRaw = .ok doc → FailsUnchanged c db call := by
  intro h
  have hcall : ShowOrUpdate strangerCall := ⟨Or.inr rfl, Or.inr rfl⟩
  have hread : (Cajun.knowing [strangerDoc]).read strangerCall.request.postDataRaw =
      .ok strangerDoc := by simp [Cajun.knowing, strangerCall]
  have hmissing : Missing emptyDatabase strangerCall := by
    simp [Missing, emptyDatabase, strangerCall, Database.tableOf]
  have hid := ((failsUnchanged_iff hcall).mp (h _ _ _ _ hcall hmissing hread)).2
  exact absurd hid (by decide)

end Domoio
