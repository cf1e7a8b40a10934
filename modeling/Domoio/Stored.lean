import Domoio.Lib.ByteOrder
import Domoio.Lib.Numeral
import Domoio.Persistence
import Domoio.Requests

/-
  File:      Domoio/Stored.lean
  Subject:   Objects saved and loaded again, for models with any fields of the database
             (include/data_mapper.h).

  A schema is a list of integer, string and text fields; its model is the class that adds these
  fields, over records with a member for each. `create` and `update` bind an integer as the four bytes
  of the host, with the binary format; the database reads these bytes in network order, in which
  `update` and `load_from_db` themselves put the id. `roundTrip_iff`: what is loaded is what was saved
  exactly when the bytes of every integer field are a palindrome.
-/

namespace Domoio

open Lib

/-! ## 1. Schemas -/

/-- The types of the database. -/
inductive ColumnType where
  | integer
  | string
  | text
  deriving DecidableEq

/-- A field of the database. -/
structure SchemaColumn where
  name : String
  type : ColumnType
  opts : Nat := optDB ||| optJSON
  db : (opts &&& optDB != 0) = true := by decide

/-- The fields of a class, each with a column of its own beside the id's. -/
structure Schema where
  tableName : String
  columns : List SchemaColumn
  distinct : (columns.map SchemaColumn.name).Nodup
  notId : "id" ∉ columns.map SchemaColumn.name

/-- An object: the members of its integer fields and of its string and text fields, by the number of
    the field. -/
structure Record where
  id : Int32 := 0
  ints : Nat → Int32 := fun _ => 0
  strings : Nat → Bytes := fun _ => []

/-- The pointer to the member of field `k`. -/
def Record.ptr (k : Nat) : ColumnType → FieldPtr Record
  | .integer => .integer (fun r => r.ints k) fun r n => { r with ints := Function.update r.ints k n }
  | .string =>
      .string (fun r => r.strings k) fun r s => { r with strings := Function.update r.strings k s }
  | .text =>
      .text (fun r => r.strings k) fun r s => { r with strings := Function.update r.strings k s }

/-- The field of a column with its number. -/
def SchemaColumn.field (q : SchemaColumn × Nat) : Field Record :=
  { name := q.1.name, ptr := Record.ptr q.2 q.1.type, opts := q.1.opts }

/-- The class with these fields. It overrides no callback. -/
def Schema.model (S : Schema) : ModelClass Unit Record where
  tableName := S.tableName
  fields := S.columns.zipIdx.map SchemaColumn.field
  getId := Record.id
  setId r id := { r with id := id }

/-- The field has the same value in both objects. -/
def SameField (r r' : Record) (q : SchemaColumn × Nat) : Prop :=
  match q.1.type with
  | .integer => r'.ints q.2 = r.ints q.2
  | .string | .text => r'.strings q.2 = r.strings q.2

/-- A value the database stores as it is: a text without NUL, a string of at most 255 characters
    without blanks behind it, any integer. -/
def StorableField (r : Record) (q : SchemaColumn × Nat) : Prop :=
  match q.1.type with
  | .integer => True
  | .string => NulFree (r.strings q.2) ∧ (r.strings q.2).length ≤ 255 ∧
      (r.strings q.2).getLast? ≠ some 32
  | .text => NulFree (r.strings q.2)

/-! ## 2. Integers -/

/-- The bytes of the integer are the same in both orders. -/
abbrev Palindromic (n : Int32) : Prop := (hostBytes n).reverse = hostBytes n

theorem decodeInt4_eq (b : Bytes) : decodeInt4 b = Int32.ofNat (bigEndian b) := by
  have hcast : ∀ (b : Bytes) (k : Nat), b.foldl (fun n c => n * 256 + (c.toNat : Int)) (k : Int) =
      ((b.foldl (fun n c => n * 256 + c.toNat) k : Nat) : Int) := by
    intro b
    induction b with
    | nil => intro k; rfl
    | cons c b ih =>
        intro k
        rw [List.foldl_cons, List.foldl_cons, ← ih]
        push_cast
        rfl
  have h := hcast b 0
  rw [decodeInt4, ← Int32.ofInt_eq_ofNat, bigEndian, ← h]
  rfl

/-- The database reads an integer as it was exactly when its bytes are a palindrome. -/
theorem decodeInt4_hostBytes_iff (n : Int32) : decodeInt4 (hostBytes n) = n ↔ Palindromic n := by
  have hv : n.toUInt32.toNat < 2 ^ 32 := n.toUInt32.toNat_lt
  have hsmall : bigEndian (littleEndianBytes n.toUInt32.toNat) < 2 ^ 32 := by
    have h := bigEndian_lt (littleEndianBytes n.toUInt32.toNat)
    rw [show (littleEndianBytes n.toUInt32.toNat).length = 4 from rfl] at h
    omega
  rw [Palindromic, hostBytes, ← bigEndian_littleEndianBytes_iff hv, decodeInt4_eq]
  constructor
  · intro h
    have hbits := congrArg (fun m : Int32 => m.toUInt32.toNat) h
    have hvalue : (Int32.ofNat (bigEndian (littleEndianBytes n.toUInt32.toNat))).toUInt32.toNat =
        bigEndian (littleEndianBytes n.toUInt32.toNat) % 2 ^ 32 := by simp
    rw [← Nat.mod_eq_of_lt hsmall, ← hvalue]
    exact hbits
  · intro h
    rw [h]
    apply Int32.toBitVec_inj.mp
    simp

/-! ## 3. Rows -/

theorem assignRow_of_notMem {l : List (String × Param)} {name : String} (h : name ∉ l.map Prod.fst)
    (row : Row) : ModelClass.assignRow row l name = row name := by
  induction l generalizing row with
  | nil => rfl
  | cons p l ih =>
      rw [List.map_cons, List.mem_cons, not_or] at h
      exact (ih h.2 _).trans (Function.update_of_ne h.1 _ _)

/-- With distinct names every column holds what was assigned to it. -/
theorem assignRow_of_mem {l : List (String × Param)} (hl : (l.map Prod.fst).Nodup)
    {p : String × Param} (hp : p ∈ l) (row : Row) :
    ModelClass.assignRow row l p.1 = p.2.column := by
  induction l generalizing row with
  | nil => cases hp
  | cons q l ih =>
      rw [List.map_cons, List.nodup_cons] at hl
      rcases List.mem_cons.mp hp with rfl | hp
      · exact (assignRow_of_notMem hl.1 _).trans (Function.update_self _ _ _)
      · exact ih hl.2 hp _

/-- The parameter bound for a field. -/
def Record.param (r : Record) (q : SchemaColumn × Nat) : Param :=
  match q.1.type with
  | .integer => .binary (hostBytes (r.ints q.2))
  | .string | .text => .text (r.strings q.2)

/-- What is assigned when an object is saved. -/
def Schema.assigned (S : Schema) (r : Record) : List (String × Param) :=
  S.columns.zipIdx.map fun q => (q.1.name, r.param q)

theorem field_db (q : SchemaColumn × Nat) :
    (SchemaColumn.field q).toDb = true ∧ (SchemaColumn.field q).fromDb = true := by
  have hdb : ((SchemaColumn.field q).opts &&& optDB != 0) = true := q.1.db
  unfold Field.toDb Field.fromDb
  rw [hdb]
  exact ⟨rfl, rfl⟩

theorem param_field (q : SchemaColumn × Nat) (r : Record) :
    (SchemaColumn.field q).ptr.param r = some (r.param q) := by
  unfold SchemaColumn.field Record.param
  cases q.1.type <;> rfl

theorem assignments_schema (S : Schema) (r : Record) :
    S.model.assignments r = some (S.assigned r) := by
  have hall : ∀ l : List (SchemaColumn × Nat),
      ((l.map SchemaColumn.field).filter Field.toDb).mapM
        (fun f => (f.ptr.param r).map fun p => (f.name, p)) =
          some (l.map fun q => (q.1.name, r.param q)) := by
    intro l
    induction l with
    | nil => rfl
    | cons q l ih =>
        rw [List.map_cons, List.filter_cons_of_pos (field_db q).1, List.mapM_cons, param_field, ih]
        rfl
  exact hall S.columns.zipIdx

theorem names_assigned (S : Schema) (r : Record) : ((S.assigned r).map Prod.fst).Nodup := by
  have hnames : (S.assigned r).map Prod.fst = S.columns.map SchemaColumn.name := by
    rw [Schema.assigned, List.map_map]
    calc S.columns.zipIdx.map (Prod.fst ∘ fun q => (q.1.name, r.param q))
        = (S.columns.zipIdx.map Prod.fst).map SchemaColumn.name := by rw [List.map_map]; rfl
      _ = S.columns.map SchemaColumn.name := by rw [List.zipIdx_map_fst]
  rw [hnames]
  exact S.distinct

/-! ## 4. Loading -/

/-- The field has the value the row gives it. -/
def LoadedField (row : Row) (r : Record) (q : SchemaColumn × Nat) : Prop :=
  match q.1.type with
  | .integer => r.ints q.2 = atoi (row q.1.name)
  | .string | .text => r.strings q.2 = row q.1.name

/-- One round of the loop of `load_from_res`. -/
def Record.load (r : Record) (id : Int32) (row : Row) (q : SchemaColumn × Nat) : Record :=
  match q.1.type with
  | .integer => { r with id := id, ints := Function.update r.ints q.2 (atoi (row q.1.name)) }
  | .string | .text => { r with id := id, strings := Function.update r.strings q.2 (row q.1.name) }

/-- The members of fields before number `i` are the same. -/
def SameBefore (i : Nat) (r r' : Record) : Prop :=
  ∀ k < i, r'.ints k = r.ints k ∧ r'.strings k = r.strings k

theorem load_id (r : Record) (id : Int32) (row : Row) (q : SchemaColumn × Nat) :
    (r.load id row q).id = id := by
  unfold Record.load
  cases q.1.type <;> rfl

theorem load_same (r : Record) (id : Int32) (row : Row) (q : SchemaColumn × Nat) :
    SameBefore q.2 r (r.load id row q) := by
  intro k hk
  have hne : k ≠ q.2 := Nat.ne_of_lt hk
  unfold Record.load
  cases q.1.type with
  | integer => exact ⟨Function.update_of_ne hne _ _, rfl⟩
  | string | text => exact ⟨rfl, Function.update_of_ne hne _ _⟩

/-- What is loaded stays until the end. -/
theorem loadedField_load {r r' : Record} {id : Int32} {row : Row} {q : SchemaColumn × Nat}
    (h : SameBefore (q.2 + 1) (r.load id row q) r') : LoadedField row r' q := by
  obtain ⟨hints, hstrings⟩ := h q.2 (Nat.lt_succ_self _)
  unfold LoadedField
  unfold Record.load at hints hstrings
  cases htype : q.1.type with
  | integer =>
      rw [htype] at hints
      exact hints.trans (Function.update_self _ _ _)
  | string | text =>
      rw [htype] at hstrings
      exact hstrings.trans (Function.update_self _ _ _)

theorem loadFields_cons (S : Schema) (id : Int32) (row : Row) (q : SchemaColumn × Nat)
    (fields : List (Field Record)) (r : Record) :
    S.model.loadFields id row (SchemaColumn.field q :: fields) r =
      S.model.loadFields id row fields (r.load id row q) := by
  rw [ModelClass.loadFields, if_pos (field_db q).2]
  unfold SchemaColumn.field Record.load
  cases q.1.type <;> rfl

/-- The loop gives every field the value of its column, and the object the id of the row. -/
theorem loadFields_schema (S : Schema) (id : Int32) (row : Row) (columns : List SchemaColumn)
    (i : Nat) (r : Record) : ∃ r',
    S.model.loadFields id row ((columns.zipIdx i).map SchemaColumn.field) r = some r' ∧
      SameBefore i r r' ∧ (∀ q ∈ columns.zipIdx i, LoadedField row r' q) ∧
        (columns ≠ [] ∨ r.id = id → r'.id = id) := by
  induction columns generalizing i r with
  | nil => exact ⟨r, rfl, fun _ _ => ⟨rfl, rfl⟩, by simp, by simp⟩
  | cons c columns ih =>
      obtain ⟨r', hload, hsame, hfields, hid⟩ := ih (i + 1) (r.load id row (c, i))
      refine ⟨r', ?_, ?_, ?_, fun _ => hid (Or.inr (load_id r id row (c, i)))⟩
      · rw [List.zipIdx_cons, List.map_cons, loadFields_cons, hload]
      · intro k hk
        obtain ⟨hints, hstrings⟩ := hsame k (Nat.lt_succ_of_lt hk)
        obtain ⟨hints', hstrings'⟩ := load_same r id row (c, i) k hk
        exact ⟨hints.trans hints', hstrings.trans hstrings'⟩
      · rw [List.zipIdx_cons]
        exact List.forall_mem_cons.mpr ⟨loadedField_load hsame, hfields⟩

/-- A field that is loaded from the row it was saved in. -/
theorem sameField_iff {r r' : Record} {q : SchemaColumn × Nat} {row : Row}
    (hr : StorableField r q) (hrow : row q.1.name = (r.param q).column)
    (hloaded : LoadedField row r' q) :
    SameField r r' q ↔ (q.1.type = .integer → Palindromic (r.ints q.2)) := by
  unfold LoadedField at hloaded
  unfold StorableField at hr
  unfold Record.param at hrow
  unfold SameField
  cases htype : q.1.type with
  | integer =>
      rw [htype] at hloaded hrow
      have hvalue : r'.ints q.2 = decodeInt4 (hostBytes (r.ints q.2)) := by
        rw [hloaded, hrow]
        exact atoi_decimal _
      rw [hvalue, ← decodeInt4_hostBytes_iff]
      simp
  | string =>
      rw [htype] at hloaded hrow hr
      refine iff_of_true ?_ (by simp)
      rw [hloaded, hrow]
      exact cString_of_nulFree hr.1
  | text =>
      rw [htype] at hloaded hrow hr
      refine iff_of_true ?_ (by simp)
      rw [hloaded, hrow]
      exact cString_of_nulFree hr

/-! ## 5. Saving -/

variable {S : Schema} {statements : Statements} {c : Cajun} {table table' : Table} {r r' : Record}

/-- A new object gets the id of the sequence. -/
theorem save_create (hid : r.id = 0) : S.model.save c () table r =
    ({ rows := table.rows.insert table.nextId
         (ModelClass.assignRow (fun _ => []) (S.assigned r)),
       nextId := table.nextId + 1 }, { r with id := table.nextId }, true) := by
  have hcreate : S.model.create table r =
      some ({ rows := table.rows.insert table.nextId
                (ModelClass.assignRow (fun _ => []) (S.assigned r)),
              nextId := table.nextId + 1 }, { r with id := table.nextId }) := by
    rw [ModelClass.create, assignments_schema]
    rfl
  have hnew : ¬ S.model.getId (S.model.beforeSave c () r) ≠ 0 := not_not.mpr hid
  rw [ModelClass.save, if_neg hnew, show S.model.beforeSave c () r = r from rfl, hcreate]

theorem save_update {row : Row} (hid : r.id ≠ 0) (hrow : table.rows[r.id]? = some row) :
    S.model.save c () table r =
      ({ table with
          rows := table.rows.insert r.id (ModelClass.assignRow row (S.assigned r)) }, r, true) := by
  have hupdate : S.model.update table r = some { table with
      rows := table.rows.insert r.id (ModelClass.assignRow row (S.assigned r)) } := by
    rw [ModelClass.update, assignments_schema, show S.model.getId r = r.id from rfl, hrow]
    rfl
  have hstored : S.model.getId (S.model.beforeSave c () r) ≠ 0 := hid
  rw [ModelClass.save, if_pos hstored, show S.model.beforeSave c () r = r from rfl, hupdate]

/-- An object that is new or has its row is saved in a row of its id. -/
theorem save_row (hstored : r.id = 0 ∨ ∃ row, table.rows[r.id]? = some row)
    (hsave : S.model.saveWhen statements c () table r = (table', r', true)) : statements.write = true ∧
      ∃ row, table'.rows[r'.id]? = some (ModelClass.assignRow row (S.assigned r)) := by
  rw [ModelClass.saveWhen] at hsave
  split at hsave
  · next hwrite =>
    refine ⟨hwrite.1, ?_⟩
    rcases eq_or_ne r.id 0 with hid | hid
    · rw [save_create hid] at hsave
      cases hsave
      exact ⟨_, Std.ExtTreeMap.getElem?_insert_self⟩
    · obtain hzero | ⟨row, hrow⟩ := hstored
      · exact absurd hzero hid
      rw [save_update hid hrow] at hsave
      cases hsave
      exact ⟨row, Std.ExtTreeMap.getElem?_insert_self⟩
  · cases hsave

/-- `load_from_db` into `blank` finds the row of the saved object `r'` and yields its id and the fields
    of `r`. -/
def LoadsBack (S : Schema) (c : Cajun) (table : Table) (r r' blank : Record) : Prop :=
  ∃ loaded, S.model.loadFromDb c table r'.id blank = .ok (loaded, true) ∧ loaded.id = r'.id ∧
    ∀ q ∈ S.columns.zipIdx, SameField r loaded q

/-- Where the row holds what is assigned to the columns of `r`. -/
theorem loadsBack_iff {base : Row} (hcolumns : S.columns ≠ []) (blank : Record)
    (hr : ∀ q ∈ S.columns.zipIdx, StorableField r q)
    (hrow : table'.rows[r'.id]? = some (ModelClass.assignRow base (S.assigned r))) :
    LoadsBack S c table' r r' blank ↔
      ∀ q ∈ S.columns.zipIdx, q.1.type = .integer → Palindromic (r.ints q.2) := by
  obtain ⟨loaded, hload, -, hfields, hid⟩ := loadFields_schema S r'.id
    (ModelClass.assignRow base (S.assigned r)) S.columns 0 blank
  have hloaded : S.model.loadFromDb c table' r'.id blank = .ok (loaded, true) := by
    have hres : S.model.loadFromRes c r'.id (ModelClass.assignRow base (S.assigned r)) blank =
        .ok loaded := by
      unfold ModelClass.loadFromRes
      rw [show S.model.fields = S.columns.zipIdx.map SchemaColumn.field from rfl, hload]
      rfl
    rw [ModelClass.loadFromDb, hrow]
    simp only [hres]
    rfl
  have hsame : (∀ q ∈ S.columns.zipIdx, SameField r loaded q) ↔
      ∀ q ∈ S.columns.zipIdx, q.1.type = .integer → Palindromic (r.ints q.2) := by
    refine forall₂_congr fun q hq => sameField_iff (hr q hq) ?_ (hfields q hq)
    exact assignRow_of_mem (names_assigned S r) (p := (q.1.name, r.param q))
      (List.mem_map_of_mem hq) base
  rw [← hsame]
  constructor
  · intro h
    obtain ⟨loaded', hloaded', -, hall⟩ := h
    rw [hloaded] at hloaded'
    cases hloaded'
    exact hall
  · intro hall
    exact ⟨loaded, hloaded, hid (Or.inl hcolumns), hall⟩

/-- What is loaded of a saved object has its id, and its fields where the bytes of every integer are a
    palindrome. The database rejects a statement that names no column. -/
theorem roundTrip_iff (hparsed : statements.write = true → S.columns ≠ []) (blank : Record)
    (hr : ∀ q ∈ S.columns.zipIdx, StorableField r q)
    (hstored : r.id = 0 ∨ ∃ row, table.rows[r.id]? = some row)
    (hsave : S.model.saveWhen statements c () table r = (table', r', true)) :
    LoadsBack S c table' r r' blank ↔
      ∀ q ∈ S.columns.zipIdx, q.1.type = .integer → Palindromic (r.ints q.2) := by
  obtain ⟨hwrite, base, hrow⟩ := save_row hstored hsave
  exact loadsBack_iff (hparsed hwrite) blank hr hrow

/-- A class with an integer and a string. -/
def meterSchema : Schema where
  tableName := "meters"
  columns := [{ name := "limit", type := .integer }, { name := "label", type := .string }]
  distinct := by decide
  notId := by decide

/-- A new meter. -/
def newMeter (limit : Int32) : Record where
  ints := Function.update (fun _ => 0) 0 limit
  strings := Function.update (fun _ => []) 1 [112, 117, 109, 112]

theorem newMeter_storable (limit : Int32) :
    ∀ q ∈ meterSchema.columns.zipIdx, StorableField (newMeter limit) q := by
  intro q hq
  have hcases : q = (⟨"limit", .integer, optDB ||| optJSON, by decide⟩, 0) ∨
      q = (⟨"label", .string, optDB ||| optJSON, by decide⟩, 1) := by
    simpa [meterSchema] using hq
  obtain rfl | rfl := hcases
  · trivial
  · have hlabel : (newMeter limit).strings 1 = [112, 117, 109, 112] := rfl
    change NulFree _ ∧ _ ∧ _
    rw [hlabel]
    exact ⟨by decide, by decide, by decide⟩

/-- The meters once it is saved. -/
def meters (limit : Int32) : Table where
  rows := (∅ : Std.ExtTreeMap Int32 Row).insert 1
    (ModelClass.assignRow (fun _ => []) (meterSchema.assigned (newMeter limit)))
  nextId := 2

theorem newMeter_saved (c : Cajun) (limit : Int32) :
    meterSchema.model.saveWhen {} c () { rows := ∅, nextId := 1 } (newMeter limit) =
      (meters limit, { newMeter limit with id := 1 }, true) := by
  rw [Httpd.actions.saveWhen_succeeds _ (by simp)]
  exact save_create rfl

theorem roundTrip_iff_newMeter :
    LoadsBack meterSchema (Cajun.knowing []) (meters 16777217) (newMeter 16777217)
        { newMeter 16777217 with id := 1 } {} ↔
      ∀ q ∈ meterSchema.columns.zipIdx, q.1.type = .integer →
        Palindromic ((newMeter 16777217).ints q.2) :=
  roundTrip_iff (fun _ => by decide) {} (newMeter_storable _) (Or.inl rfl) (newMeter_saved _ _)

/-- The number 1 comes back as 16777216. -/
theorem not_loadsBack_newMeter :
    ¬ ∀ (S : Schema) (statements : Statements) (c : Cajun) (table table' : Table)
      (r r' blank : Record), (statements.write = true → S.columns ≠ []) →
      (∀ q ∈ S.columns.zipIdx, StorableField r q) →
      (r.id = 0 ∨ ∃ row, table.rows[r.id]? = some row) →
      S.model.saveWhen statements c () table r = (table', r', true) →
        LoadsBack S c table' r r' blank := by
  intro h
  have hback := h meterSchema {} (Cajun.knowing []) _ _ (newMeter 1) _ {} (fun _ => by decide)
    (newMeter_storable 1) (Or.inl rfl) (newMeter_saved _ 1)
  have hpalindromic := (loadsBack_iff (by decide) {} (newMeter_storable 1)
    Std.ExtTreeMap.getElem?_insert_self).mp hback
  have hlimit : Palindromic ((newMeter 1).ints 0) :=
    hpalindromic (⟨"limit", .integer, optDB ||| optJSON, by decide⟩, 0) (by simp [meterSchema]) rfl
  exact absurd hlimit (by decide)

end Domoio
