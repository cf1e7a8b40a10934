import Domoio.Json
import Domoio.Lib.ByteOrder

/-
  File:      Domoio/DataMapper.lean
  Subject:   `vault::Model` (include/data_mapper.h): fields with option flags, the JSON and the
             database codecs they drive, and `save`.

  A model class is a record (`ModelClass`) of its fields and of the callbacks it overrides. A
  field's pointer into the object is a pair of a getter and a setter. The callback that builds JSON
  may read the process (`ρ`), as `Device::after_to_json_object` reads the registry of live devices.
-/

namespace Domoio

open Lib

/-! ## 1. Fields -/

/-- `vault::field_options`. -/
def optDB : Nat := 0x01
def optFromDB : Nat := 0x02
def optToDB : Nat := 0x04
def optJSON : Nat := 0x08
def optFromJSON : Nat := 0x10
def optToJSON : Nat := 0x20

/-- A field's type and its pointer into a `T`. -/
inductive FieldPtr (T : Type) where
  | string (get : T → Bytes) (set : T → Bytes → T)
  | text (get : T → Bytes) (set : T → Bytes → T)
  | integer (get : T → Int32) (set : T → Int32 → T)
  | number
  | boolean (get : T → Bool) (set : T → Bool → T)

/-- `vault::Field`. -/
structure Field (T : Type) where
  name : String
  ptr : FieldPtr T
  opts : Nat := optDB ||| optJSON

namespace Field

variable {T : Type}

def fromDb (f : Field T) : Bool := f.opts &&& optDB != 0 || f.opts &&& optFromDB != 0
def toDb (f : Field T) : Bool := f.opts &&& optDB != 0 || f.opts &&& optToDB != 0
def fromJson (f : Field T) : Bool := f.opts &&& optJSON != 0 || f.opts &&& optFromJSON != 0
def toJson (f : Field T) : Bool := f.opts &&& optJSON != 0 || f.opts &&& optToJSON != 0

end Field

/-- A class derived from `vault::Model`: its table, its fields in the order of the `add_field`
    calls, and the callbacks. `ρ` is what the JSON callback reads of the running process. -/
structure ModelClass (ρ T : Type) where
  tableName : String
  fields : List (Field T)
  getId : T → Int32
  setId : T → Int32 → T
  afterFromJsonObject : Object → T → Except JsonException T := fun _ t => .ok t
  afterToJsonObject : ρ → T → Object → Object := fun _ _ o => o
  beforeSave : Cajun → ρ → T → T := fun _ _ t => t
  afterLoad : Cajun → T → Except JsonException T := fun _ t => .ok t

namespace ModelClass

variable {ρ T : Type} (M : ModelClass ρ T)

/-! ## 2. JSON -/

/-- One round of the loop of `from_json_object`: the converted member is also left in `doc`. -/
def fromJsonField (p : Object × T) (f : Field T) : Object × T :=
  if f.fromJson then
    match f.ptr with
    | .integer _ set =>
        let v := (Object.get p.1 f.name).toNumber
        (Object.set p.1 f.name (.number v), set p.2 (intOfDouble v))
    | .string _ set | .text _ set =>
        let v := (Object.get p.1 f.name).toStr
        (Object.set p.1 f.name (.string v), set p.2 v)
    | .boolean _ set =>
        let v := (Object.get p.1 f.name).toBoolean
        (Object.set p.1 f.name (.boolean v), set p.2 v)
    | .number => p
  else p

/-- `Model::from_json_object`. -/
def fromJsonObject (doc : Object) (t : T) : Except JsonException T :=
  let p := M.fields.foldl fromJsonField (doc, t)
  M.afterFromJsonObject p.1 p.2

/-- One round of the loop of `to_json_object`. -/
def toJsonField (t : T) (self : Object) (f : Field T) : Object :=
  if f.toJson then
    match f.ptr with
    | .integer get _ => Object.set self f.name (.number (doubleOfInt (get t)))
    | .string get _ | .text get _ => Object.set self f.name (.string (cString (get t)))
    | .boolean get _ => Object.set self f.name (.boolean (get t))
    | .number => self
  else self

/-- `Model::to_json_object`. -/
def toJsonObject (env : ρ) (t : T) : Object :=
  let self : Object :=
    if M.getId t ≠ 0 then Object.set [] "id" (.number (doubleOfInt (M.getId t))) else []
  M.afterToJsonObject env t (M.fields.foldl (toJsonField t) self)

/-- `Model::to_json`. -/
def toJson (c : Cajun) (env : ρ) (t : T) : Bytes := c.write (M.toJsonObject env t)

/-- `Model::from_json`. -/
def fromJson (c : Cajun) (str : Bytes) (t : T) : Except JsonException T := do
  let doc ← c.read str
  M.fromJsonObject doc t

theorem fromJson_of_read {c : Cajun} {str : Bytes} {doc : Object} (h : c.read str = .ok doc)
    (t : T) : M.fromJson c str t = M.fromJsonObject doc t := by
  rw [fromJson, h]
  rfl

end ModelClass

/-! ## 3. The database -/

/-- A row: the text of every column. -/
abbrev Row := String → Bytes

/-- A table: its rows by id, and the id its sequence gives next. -/
structure Table where
  rows : Std.ExtTreeMap Int32 Row
  nextId : Int32

/-- A bound parameter: text format up to its NUL, or the bytes of binary format. -/
inductive Param where
  | text (value : Bytes)
  | binary (value : Bytes)
  deriving DecidableEq

/-- The bytes of an `int` in the host's (little-endian) order. -/
def hostBytes (n : Int32) : Bytes := littleEndianBytes n.toUInt32.toNat

/-- The database reads a binary `int4` in network order. -/
def decodeInt4 (b : Bytes) : Int32 := Int32.ofInt (b.foldl (fun n c => n * 256 + (c.toNat : Int)) 0)

/-- What a column holds after a parameter was stored in it. -/
def Param.column : Param → Bytes
  | .text v => cString v
  | .binary v => decimal (decodeInt4 v)

/-- The parameter bound for a field; there is none for a boolean or a number. -/
def FieldPtr.param {T : Type} (t : T) : FieldPtr T → Option Param
  | .integer get _ => some (.binary (hostBytes (get t)))
  | .string get _ | .text get _ => some (.text (get t))
  | .number | .boolean _ _ => none

namespace ModelClass

variable {ρ T : Type} (M : ModelClass ρ T)

/-- The columns and parameters of the `to_db` fields, in order; nothing when one of them has a
    type the switch does not know. -/
def assignments (t : T) : Option (List (String × Param)) :=
  (M.fields.filter Field.toDb).mapM fun f => (f.ptr.param t).map fun p => (f.name, p)

/-- The row after its columns are assigned. -/
def assignRow (row : Row) (columns : List (String × Param)) : Row :=
  columns.foldl (fun row p => Function.update row p.1 p.2.column) row

/-- `Model::create`: the new row and its id. -/
def create (table : Table) (t : T) : Option (Table × T) := do
  let columns ← M.assignments t
  let row := assignRow (fun _ => []) columns
  return ({ rows := table.rows.insert table.nextId row, nextId := table.nextId + 1 },
    M.setId t table.nextId)

/-- `Model::update`: `update ... where id=` succeeds without a row of that id as well. -/
def update (table : Table) (t : T) : Option Table := do
  let columns ← M.assignments t
  return match table.rows[M.getId t]? with
    | some row => { table with rows := table.rows.insert (M.getId t) (assignRow row columns) }
    | none => table

/-- `Model::save`; the result says whether it returned true. -/
def save (c : Cajun) (env : ρ) (table : Table) (t : T) : Table × T × Bool :=
  let t := M.beforeSave c env t
  if M.getId t ≠ 0 then
    match M.update table t with
    | some table => (table, t, true)
    | none => (table, t, false)
  else
    match M.create table t with
    | some (table, t) => (table, t, true)
    | none => (table, t, false)

/-- The loop of `load_from_res`; `none` is its early `return false`. -/
def loadFields (id : Int32) (row : Row) : List (Field T) → T → Option T
  | [], t => some t
  | f :: fs, t =>
      if f.fromDb then
        match f.ptr with
        | .integer _ set => loadFields id row fs (set (M.setId t id) (atoi (row f.name)))
        | .string _ set | .text _ set => loadFields id row fs (set (M.setId t id) (row f.name))
        | .number | .boolean _ _ => none
      else loadFields id row fs t

/-- `Model::load_from_res` of the row with this id. -/
def loadFromRes (c : Cajun) (id : Int32) (row : Row) (t : T) : Except JsonException T :=
  match M.loadFields id row M.fields t with
  | some t => M.afterLoad c t
  | none => .ok t

/-- `Model::load_from_db` into `t`: the object afterwards and whether it returned true. -/
def loadFromDb (c : Cajun) (table : Table) (id : Int32) (t : T) :
    Except JsonException (T × Bool) :=
  match table.rows[id]? with
  | none => .ok (t, false)
  | some row => do
      let t ← M.loadFromRes c id row t
      return (t, true)

end ModelClass

end Domoio
