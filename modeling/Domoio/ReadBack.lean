import Domoio.Httpd
import Domoio.Rows

/-
  File:      Domoio/ReadBack.lean
  Subject:   Reading a device or a user over the HTTP API and writing it back.

  The admin UI gets the JSON of a URL, lets it be edited and puts it to the same URL. Put back as it
  came, a user keeps its row. A device loses its password and its configuration, which the JSON
  leaves out and the update reads as empty (`getPut_unchanged`).
-/

namespace Domoio

open Lib

namespace Httpd

/-- A GET of a URL and a PUT of what it returned to the same URL: the table afterwards. Other
    devices may be live at each. -/
def getPut (action : Cajun → Registry → Table → Request → Except JsonException Reply) (c : Cajun)
    (env env' : Registry) (table : Table) (params : String → Bytes) : Except JsonException Table := do
  let shown ← action c env table { method := .get, params }
  match shown.responseData with
  | none => return shown.table
  | some body =>
      let reply ← action c env' shown.table { method := .put, params, postDataRaw := body }
      return reply.table

/-- A device as `save` stored it in its row. A row's id comes from a sequence, which begins at 1. -/
structure StoredDevice (c : Cajun) (table : Table) (d : Device) (row : Row) : Prop where
  found : table.rows[d.id]? = some row
  id_ne : d.id ≠ 0
  label : row "label" = d.label
  password : row "password" = d.password
  specifications : row "specifications" =
    Specifications.model.toJson c (fun _ => none) d.specifications
  config : row "config" = d.configRaw
  type : row "type" = d.type
  plain : NulFree d.label ∧ NulFree d.type
  storable : d.specifications.Storable
  reproduces : c.Reproduces (Specifications.model.toJsonObject (fun _ => none) d.specifications)

/-- A user as `save` stored it in its row. -/
structure StoredUser (table : Table) (u : User) (row : Row) : Prop where
  found : table.rows[u.id]? = some row
  id_ne : u.id ≠ 0
  name : row "name" = u.name
  email : row "email" = u.email
  encryptedPassword : row "encrypted_password" = u.encryptedPassword
  plain : NulFree u.name ∧ NulFree u.email ∧ NulFree u.encryptedPassword

/-! ## 1. The action at a row -/

section Resource

variable {ρ T : Type} {M : ModelClass ρ T} {blank t t' : T} {c : Cajun} {env : ρ} {table : Table}
  {params : String → Bytes} {loaded : Bool} {body : Bytes}

theorem resource_get (hid : atoi (params "id") ≠ 0)
    (hload : M.loadFromDb c table (atoi (params "id")) blank = .ok (t, loaded)) :
    actions.resource M blank c env table { method := .get, params } =
      .ok { table, responseData := some (M.toJson c env t) } := by
  simp [actions.resource, actions.resourceWith, carriedOut, Request.paramInt, hid, hload, bind, Except.bind,
    pure, Except.pure]

variable (env) in
theorem resource_put (hid : atoi (params "id") ≠ 0)
    (hload : M.loadFromDb c table (atoi (params "id")) blank = .ok (t, loaded))
    (hbody : M.fromJson c body t = .ok t') :
    ∃ data, actions.resource M blank c env table { method := .put, params, postDataRaw := body } =
      .ok { table := (M.save c env table t').1, responseData := data } := by
  simp [actions.resource, actions.resourceWith, carriedOut, Request.paramInt, hid, hload, hbody, bind,
    Except.bind, pure, Except.pure]

/-- The table after a GET and a PUT of what it returned, where the row loads and the body is read. -/
theorem getPut_resource (action : Cajun → Registry → Table → Request → Except JsonException Reply)
    {M : ModelClass Registry T} (env env' : Registry)
    (haction : ∀ env table request, action c env table request =
      actions.resource M blank c env table request)
    (hid : atoi (params "id") ≠ 0)
    (hload : M.loadFromDb c table (atoi (params "id")) blank = .ok (t, loaded))
    (hbody : M.fromJson c (M.toJson c env t) t = .ok t') :
    getPut action c env env' table params = .ok (M.save c env' table t').1 := by
  obtain ⟨data, hput⟩ := resource_put env' hid hload hbody
  simp only [getPut, haction, resource_get hid hload, hput, bind, Except.bind]
  rfl

end Resource

/-! ## 2. Devices and users -/

variable {c : Cajun} {env env' : Registry} {table : Table} {params : String → Bytes} {row : Row}
  {d : Device} {u : User}

/-- The object a stored device is loaded into. -/
def StoredDevice.loaded (_h : StoredDevice c table d row) : Device :=
  { d with specificationsRaw := row "specifications" }

theorem StoredDevice.loadFromDb (h : StoredDevice c table d row) :
    Device.model.loadFromDb c table d.id {} = .ok (h.loaded, true) := by
  have hread : Specifications.model.fromJson c (row "specifications") {} = .ok d.specifications := by
    rw [h.specifications]
    refine (ModelClass.fromJson_of_read _ h.reproduces _).trans ?_
    exact specifications_reread h.storable fun k hk => by simp at hk
  have hrow : deviceOfRow d.id row d.specifications = h.loaded := by
    rw [deviceOfRow, h.label, h.password, h.config, h.type]
    rfl
  rw [device_loadFromDb h.found hread, hrow]

/-- What is not in the document of a device is empty after it was read. -/
def emptied (d : Device) : Device := { d with password := [], configRaw := [] }

/-- The document of a device read into it again. -/
theorem StoredDevice.fromJson_toJson (h : StoredDevice c table d row)
    (hdoc : c.Reproduces (Device.model.toJsonObject env d)) :
    Device.model.fromJson c (Device.model.toJson c env h.loaded) h.loaded =
      .ok (emptied h.loaded) := by
  obtain ⟨hlabel, hpassword, hconfig, htype, hspecs⟩ := deviceToJson_get env d
  refine (ModelClass.fromJson_of_read _ hdoc _).trans ?_
  rw [deviceFromJson_eq, hlabel, hpassword, hconfig, htype, hspecs]
  have hreread : Specifications.model.fromJsonObject
      (Specifications.model.toJsonObject env d.specifications) d.specifications =
        .ok d.specifications := specifications_reread h.storable fun _ hk => hk
  show (Specifications.model.fromJsonObject (Specifications.model.toJsonObject env
    d.specifications) d.specifications).map _ = _
  rw [hreread, Json.toStr, Json.toStr, cString_of_nulFree h.plain.1, cString_of_nulFree h.plain.2]
  rfl

/-- A device's row after it was read and written back. -/
theorem getPut_devices (params : String → Bytes) (h : StoredDevice c table d row) (hid : atoi (params "id") = d.id)
    (env' : Registry) (hdoc : c.Reproduces (Device.model.toJsonObject env d)) :
    ∃ table', getPut actions.devices c env env' table params = .ok table' ∧
      table'.rows[d.id]? =
        some (Function.update (Function.update row "password" []) "config" []) := by
  have hput := getPut_resource actions.devices env env' (fun _ _ _ => rfl) (hid ▸ h.id_ne)
    (hid ▸ h.loadFromDb) (h.fromJson_toJson hdoc)
  refine ⟨_, hput, ?_⟩
  rw [device_save (d := emptied h.loaded) h.id_ne h.found]
  show (table.rows.insert d.id _)[d.id]? = _
  rw [Std.ExtTreeMap.getElem?_insert_self]
  -- the text is the one in the row, whichever devices are live
  have htext : cString (Specifications.model.toJson c env' d.specifications) =
      row "specifications" := by
    rw [cString_of_nulFree (nulFree_specificationsToJson c d.specifications), h.specifications]
    rfl
  have hlabel : cString d.label = row "label" := by rw [cString_of_nulFree h.plain.1, h.label]
  have htype : cString d.type = row "type" := by rw [cString_of_nulFree h.plain.2, h.type]
  refine congrArg some (funext fun column => ?_)
  show Function.update (Function.update (Function.update (Function.update (Function.update row
    "label" (cString d.label)) "password" []) "specifications" (cString
    (Specifications.model.toJson c env' d.specifications))) "config" []) "type" (cString d.type)
    column = _
  rw [hlabel, htype, htext]
  simp only [Function.update_apply]
  by_cases h1 : column = "type"
  · simp [h1]
  by_cases h2 : column = "specifications"
  · simp [h2]
  by_cases h3 : column = "label"
  · simp [h3]
  simp [h1, h2, h3]

/-- A user's row after it was read and written back. -/
theorem getPut_users (h : StoredUser table u row) (hid : atoi (params "id") = u.id)
    (env' : Registry) (hdoc : c.Reproduces (User.model.toJsonObject env u)) :
    ∃ table', getPut actions.users c env env' table params = .ok table' ∧
      table'.rows[u.id]? = some row := by
  have huser : userOfRow u.id row = u := by
    rw [userOfRow, h.name, h.email, h.encryptedPassword]
  have hload : User.model.loadFromDb c table (atoi (params "id")) {} = .ok (u, true) := by
    rw [hid, user_loadFromDb h.found, huser]
  have hbody : User.model.fromJson c (User.model.toJson c env u) u = .ok u := by
    obtain ⟨hname, hemail⟩ := userToJson_get env u
    refine (ModelClass.fromJson_of_read _ hdoc _).trans ?_
    rw [userFromJson_eq, hname, hemail, Json.toStr, Json.toStr, cString_of_nulFree h.plain.1,
      cString_of_nulFree h.plain.2.1]
  have hput := getPut_resource actions.users env env' (fun _ _ _ => rfl) (hid ▸ h.id_ne) hload hbody
  refine ⟨_, hput, ?_⟩
  rw [user_save h.id_ne h.found]
  show (table.rows.insert u.id _)[u.id]? = _
  rw [Std.ExtTreeMap.getElem?_insert_self, updatedUserRow, cString_of_nulFree h.plain.1,
    cString_of_nulFree h.plain.2.1, cString_of_nulFree h.plain.2.2, ← h.name, ← h.email,
    ← h.encryptedPassword, Function.update_eq_self, Function.update_eq_self,
    Function.update_eq_self]

/-- Read and written back, a device keeps its row exactly when its password and its configuration
    are empty. A user always does. -/
theorem getPut_unchanged (c : Cajun) (env env' : Registry) (table : Table)
    (params : String → Bytes) (row : Row) :
    (∀ d, StoredDevice c table d row → atoi (params "id") = d.id →
      c.Reproduces (Device.model.toJsonObject env d) →
      ∃ table', getPut actions.devices c env env' table params = .ok table' ∧
        (table'.rows[d.id]? = some row ↔ d.password = [] ∧ d.configRaw = [])) ∧
    ∀ u, StoredUser table u row → atoi (params "id") = u.id →
      c.Reproduces (User.model.toJsonObject env u) →
      ∃ table', getPut actions.users c env env' table params = .ok table' ∧
        table'.rows[u.id]? = some row := by
  refine ⟨fun d h hid hdoc => ?_, fun u h hid hdoc => getPut_users h hid env' hdoc⟩
  obtain ⟨table', hput, hrow⟩ := getPut_devices params h hid env' hdoc
  refine ⟨table', hput, ?_⟩
  rw [hrow, ← h.password, ← h.config]
  constructor
  · intro heq
    have hcolumns := congrFun (Option.some.inj heq)
    exact ⟨(hcolumns "password").symm.trans (by simp), (hcolumns "config").symm.trans (by simp)⟩
  · intro heq
    have hpassword : Function.update row "password" [] = row :=
      heq.1 ▸ Function.update_eq_self "password" row
    have hconfig : Function.update row "config" [] = row :=
      heq.2 ▸ Function.update_eq_self "config" row
    rw [hpassword, hconfig]

/-- A device with a password. -/
def porch : Device where
  id := 7
  label := ascii "porch"
  password := ascii "secret"
  specifications := thermostat

def porchDoc : Object := Device.model.toJsonObject (fun _ => none) porch

def visitor : User where
  id := 7
  name := ascii "visitor"
  encryptedPassword := ascii "x1"

def visitorDoc : Object := User.model.toJsonObject (fun _ : Int32 => none) visitor

/-- A reader for the documents of the two. -/
def porchCajun : Cajun := Cajun.knowing [thermostatDoc, porchDoc, visitorDoc]

/-- The columns of the device and of the user. -/
def porchRow : Row := fun column =>
  if column = "label" then porch.label
  else if column = "password" then porch.password
  else if column = "specifications" then porchCajun.write thermostatDoc
  else if column = "name" then visitor.name
  else if column = "encrypted_password" then visitor.encryptedPassword
  else []

def porchTable : Table where
  rows := (∅ : Std.ExtTreeMap Int32 Row).insert 7 porchRow
  nextId := 8

theorem storedDevice_porch : StoredDevice porchCajun porchTable porch porchRow where
  found := Std.ExtTreeMap.getElem?_insert_self
  id_ne := by decide
  label := rfl
  password := rfl
  specifications := rfl
  config := rfl
  type := rfl
  plain := by decide
  storable := thermostat_storable
  reproduces := Cajun.knowing_reproduces [] _ (by simp)

theorem storedUser_visitor : StoredUser porchTable visitor porchRow where
  found := Std.ExtTreeMap.getElem?_insert_self
  id_ne := by decide
  name := rfl
  email := rfl
  encryptedPassword := rfl
  plain := by decide

theorem reproduces_porchDoc : porchCajun.Reproduces porchDoc :=
  Cajun.knowing_reproduces [thermostatDoc] [visitorDoc] (by decide)

theorem reproduces_visitorDoc : porchCajun.Reproduces visitorDoc :=
  Cajun.knowing_reproduces [thermostatDoc, porchDoc] [] (by decide)

theorem getPut_unchanged_porch : (∃ table',
      getPut actions.devices porchCajun (fun _ => none) (fun _ => none) porchTable
        (fun _ => ascii "7") = .ok table' ∧
      (table'.rows[porch.id]? = some porchRow ↔ porch.password = [] ∧ porch.configRaw = [])) ∧
    ∃ table', getPut actions.users porchCajun (fun _ => none) (fun _ => none) porchTable
      (fun _ => ascii "7") = .ok table' ∧ table'.rows[visitor.id]? = some porchRow := by
  have h := getPut_unchanged porchCajun (fun _ => none) (fun _ => none) porchTable
    (fun _ => ascii "7") porchRow
  exact ⟨h.1 porch storedDevice_porch (by decide) reproduces_porchDoc,
    h.2 visitor storedUser_visitor (by decide) reproduces_visitorDoc⟩

/-- The device loses its password. -/
theorem not_getPut_unchanged_porch :
    ¬ ∀ (c : Cajun) (env env' : Registry) (table : Table) (params : String → Bytes) (row : Row)
      (d : Device), StoredDevice c table d row → atoi (params "id") = d.id →
      c.Reproduces (Device.model.toJsonObject env d) →
      ∃ table', getPut actions.devices c env env' table params = .ok table' ∧
        table'.rows[d.id]? = some row := by
  intro h
  have hid : atoi ((fun _ => ascii "7" : String → Bytes) "id") = porch.id := by decide
  obtain ⟨table', hput, hrow⟩ := h porchCajun (fun _ => none) (fun _ => none) porchTable
    (fun _ => ascii "7") porchRow porch storedDevice_porch hid reproduces_porchDoc
  obtain ⟨table₁, hput₁, hrow₁⟩ := getPut_devices (fun _ => ascii "7") storedDevice_porch hid
    (fun _ => none) reproduces_porchDoc
  rw [hput] at hput₁
  cases hput₁
  rw [hrow] at hrow₁
  have hpassword := congrFun (Option.some.inj hrow₁) "password"
  exact absurd hpassword (by decide)

end Httpd

end Domoio
