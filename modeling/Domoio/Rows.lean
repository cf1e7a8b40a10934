import Domoio.Persistence

/-
  File:      Domoio/Rows.lean
  Subject:   Devices and users between their documents, their objects and their rows.

  What `from_json_object` and `to_json_object` come to for the two models with a table
  (`deviceFromJson_eq`, `deviceToJson_get` and the same for users), what a row gives when it is
  loaded (`device_loadFromDb`) and what saving makes of it (`device_save`).
-/

namespace Domoio

open Lib

variable {env : Registry} {c : Cajun} {table : Table} {id : Int32} {row : Row}

/-! ## 1. Documents -/

/-- What a device takes from a document. -/
theorem deviceFromJson_eq (doc : Object) (d : Device) :
    Device.model.fromJsonObject doc d = (Specifications.model.fromJsonObject
      (Object.get doc "specifications").toObject d.specifications).map fun specs =>
        { d with
          label := (Object.get doc "label").toStr
          password := (Object.get doc "password").toStr
          configRaw := (Object.get doc "config").toStr
          type := (Object.get doc "type").toStr
          specifications := specs } := by
  simp [ModelClass.fromJsonObject, ModelClass.fromJsonField, Device.model, Field.fromJson, optJSON,
    optDB, optFromJSON]
  rfl

/-- What a device writes: its password and its configuration are left out. -/
theorem deviceToJson_get (env : Registry) (d : Device) :
    Object.get (Device.model.toJsonObject env d) "label" = .string (cString d.label) ∧
      Object.get (Device.model.toJsonObject env d) "password" = .null ∧
      Object.get (Device.model.toJsonObject env d) "config" = .null ∧
      Object.get (Device.model.toJsonObject env d) "type" = .string (cString d.type) ∧
      Object.get (Device.model.toJsonObject env d) "specifications" =
        .object (Specifications.model.toJsonObject env d.specifications) := by
  have hnone : ∀ name : String, Object.get [] name = .null := fun _ => rfl
  by_cases hid : d.id = 0
  · simp [ModelClass.toJsonObject, ModelClass.toJsonField, Device.model, Field.toJson, optJSON,
      optDB, optFromJSON, optToJSON, hid, hnone]
  · simp [ModelClass.toJsonObject, ModelClass.toJsonField, Device.model, Field.toJson, optJSON,
      optDB, optFromJSON, optToJSON, hid, hnone]

theorem userFromJson_eq (doc : Object) (u : User) :
    User.model.fromJsonObject doc u = .ok { u with
      name := (Object.get doc "name").toStr, email := (Object.get doc "email").toStr } := by
  simp [ModelClass.fromJsonObject, ModelClass.fromJsonField, User.model, Field.fromJson, optJSON,
    optDB, optFromJSON]

theorem bind_eq_ok {ε α β : Type} {r : Except ε α} {f : α → Except ε β} {b : β}
    (h : (r >>= f) = .ok b) : ∃ a, r = .ok a ∧ f a = .ok b := by
  cases r with
  | error e => cases h
  | ok a => exact ⟨a, rfl, h⟩

/-- Reading a document changes neither the id nor the encrypted password. -/
theorem user_fromJson {c : Cajun} {body : Bytes} {u u' : User}
    (h : User.model.fromJson c body u = .ok u') :
    u'.id = u.id ∧ u'.encryptedPassword = u.encryptedPassword := by
  obtain ⟨doc, -, hu⟩ := bind_eq_ok h
  rw [userFromJson_eq] at hu
  cases hu
  exact ⟨rfl, rfl⟩

theorem userToJson_get (env : Registry) (u : User) :
    Object.get (User.model.toJsonObject env u) "name" = .string (cString u.name) ∧
      Object.get (User.model.toJsonObject env u) "email" = .string (cString u.email) := by
  by_cases hid : u.id = 0
  · simp [ModelClass.toJsonObject, ModelClass.toJsonField, User.model, Field.toJson, optJSON,
      optDB, optToJSON, hid]
  · simp [ModelClass.toJsonObject, ModelClass.toJsonField, User.model, Field.toJson, optJSON,
      optDB, optToJSON, hid]

/-! ## 2. Rows -/

/-- The device in a row, its specifications read. -/
def deviceOfRow (id : Int32) (row : Row) (specs : Specifications) : Device where
  id := id
  label := row "label"
  password := row "password"
  specificationsRaw := row "specifications"
  configRaw := row "config"
  type := row "type"
  specifications := specs

theorem device_loadFromDb {specs : Specifications} (hr : table.rows[id]? = some row)
    (hs : Specifications.model.fromJson c (row "specifications") {} = .ok specs) :
    Device.model.loadFromDb c table id {} = .ok (deviceOfRow id row specs, true) := by
  have hload : Device.model.loadFields id row Device.model.fields {} = some
      (deviceOfRow id row {}) := rfl
  have hafter : Device.model.afterLoad c (deviceOfRow id row {}) =
      .ok (deviceOfRow id row specs) := by
    show ((Specifications.model.fromJson c (row "specifications") {}).bind fun specs =>
      .ok (deviceOfRow id row specs)) = _
    rw [hs]
    rfl
  simp only [ModelClass.loadFromDb, hr, ModelClass.loadFromRes, hload, hafter]
  rfl

/-- The row of a device after it is updated. -/
def updatedRow (row : Row) (d : Device) (text : Bytes) : Row :=
  Function.update (Function.update (Function.update (Function.update (Function.update row
    "label" (cString d.label)) "password" (cString d.password)) "specifications" (cString text))
    "config" (cString d.configRaw)) "type" (cString d.type)

theorem device_save {d : Device} (hid : d.id ≠ 0) (hr : table.rows[d.id]? = some row) :
    (Device.model.save c env table d).1 = ⟨table.rows.insert d.id
      (updatedRow row d (Specifications.model.toJson c env d.specifications)), table.nextId⟩ := by
  have hassign : Device.model.assignments (Device.model.beforeSave c env d) = some
      [("label", .text d.label), ("password", .text d.password),
        ("specifications", .text (Specifications.model.toJson c env d.specifications)),
        ("config", .text d.configRaw), ("type", .text d.type)] := rfl
  have hid' : Device.model.getId (Device.model.beforeSave c env d) = d.id := rfl
  simp only [ModelClass.save, hid', if_pos hid, ModelClass.update, hassign, hr]
  rfl

/-- The user in a row. -/
def userOfRow (id : Int32) (row : Row) : User where
  id := id
  name := row "name"
  email := row "email"
  encryptedPassword := row "encrypted_password"

theorem user_loadFromDb (hr : table.rows[id]? = some row) :
    User.model.loadFromDb c table id {} = .ok (userOfRow id row, true) := by
  simp only [ModelClass.loadFromDb, hr]
  rfl

/-- The row of a user after it is updated. -/
def updatedUserRow (row : Row) (u : User) : Row :=
  Function.update (Function.update (Function.update row "name" (cString u.name))
    "email" (cString u.email)) "encrypted_password" (cString u.encryptedPassword)

theorem user_save {u : User} (hid : u.id ≠ 0) (hr : table.rows[u.id]? = some row) :
    (User.model.save c env table u).1 = ⟨table.rows.insert u.id (updatedUserRow row u),
      table.nextId⟩ := by
  have hassign : User.model.assignments u = some [("name", .text u.name), ("email", .text u.email),
      ("encrypted_password", .text u.encryptedPassword)] := rfl
  have hid' : User.model.getId u = u.id := rfl
  have hbefore : User.model.beforeSave c env u = u := rfl
  simp only [ModelClass.save, hbefore, hid', if_pos hid, ModelClass.update, hassign, hr]
  rfl

end Domoio
