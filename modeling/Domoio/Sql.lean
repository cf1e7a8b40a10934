import Domoio.Models

/-
  File:      Domoio/Sql.lean
  Subject:   The statements `Model::create` and `Model::update` build, and the parameters they bind
             (include/data_mapper.h, lines 458 to 642).

  Both loops run over the fields with a counter `i` of their own, append to the texts and write slot
  `i` of three arrays that were given their size by a counting loop before. Here a slot that has not
  been written is `none`, and an index behind the end of an array is an error.

  `statements_aligned`: both run through, every slot is set, and what they have written is the list of
  the columns of the `to_db` fields, name, placeholder, cast, value, length and format of each at its
  own position. What a column has is said by the type of its field (`FieldPtr.Binds`), and not by the
  switches of the two loops.
-/

namespace Domoio

open Lib

/-! ## 1. The arrays -/

/-- An index behind the end of an array. -/
inductive OutOfBounds where
  | mk
  deriving DecidableEq

/-- `array[i] = x`. -/
def assignSlot {α : Type} (array : List (Option α)) (i : Nat) (x : α) :
    Except OutOfBounds (List (Option α)) :=
  if i < array.length then .ok (array.set i (some x)) else .error .mk

/-- What a statement binds for a parameter: the memory from `values[i]` on, `paramLengths[i]`,
    `paramFormats[i]` and the cast behind its placeholder. -/
structure Binding where
  value : Bytes
  paramLength : Nat
  paramFormat : Nat
  cast : Bytes
  deriving DecidableEq

/-- The parameter that `PQexecParams` takes from the three arrays: a text up to its NUL, or as many
    bytes as the length says. -/
def Binding.param (b : Binding) : Param :=
  if b.paramFormat = 0 then .text (cString b.value) else .binary (b.value.take b.paramLength)

/-- The arrays `values`, `paramLengths` and `paramFormats`. -/
structure ParamArrays where
  values : List (Option Bytes)
  paramLengths : List (Option Nat)
  paramFormats : List (Option Nat)

namespace ParamArrays

/-- The arrays on the stack, before anything is written. -/
def alloc (paramsCount : Nat) : ParamArrays where
  values := List.replicate paramsCount none
  paramLengths := List.replicate paramsCount none
  paramFormats := List.replicate paramsCount none

/-- The three assignments of a branch of the switch. -/
def assign (arrays : ParamArrays) (i : Nat) (b : Binding) : Except OutOfBounds ParamArrays := do
  let values ← assignSlot arrays.values i b.value
  let paramLengths ← assignSlot arrays.paramLengths i b.paramLength
  let paramFormats ← assignSlot arrays.paramFormats i b.paramFormat
  return { values, paramLengths, paramFormats }

end ParamArrays

/-! ## 2. The statements -/

/-- The switch of `create` over the type of a field; `none` is its `default`. -/
def FieldPtr.createBinding {T : Type} (t : T) : FieldPtr T → Option Binding
  | .integer get _ => some
      { value := hostBytes (get t), paramLength := 4, paramFormat := 1, cast := ascii "::integer" }
  | .string get _ => some
      { value := get t ++ [0], paramLength := 8, paramFormat := 0, cast := ascii "::char(255)" }
  | .text get _ => some
      { value := get t ++ [0], paramLength := 8, paramFormat := 0, cast := ascii "::text" }
  | .number | .boolean _ _ => none

/-- The switch of `update`. -/
def FieldPtr.updateBinding {T : Type} (t : T) : FieldPtr T → Option Binding
  | .integer get _ => some
      { value := hostBytes (get t), paramLength := 4, paramFormat := 1, cast := ascii "::integer" }
  | .string get _ => some
      { value := get t ++ [0], paramLength := 8, paramFormat := 0, cast := ascii "::char(255)" }
  | .text get _ => some
      { value := get t ++ [0], paramLength := 8, paramFormat := 0, cast := ascii "::text" }
  | .number | .boolean _ _ => none

/-- `htonl`. -/
def htonl (id : Int32) : Bytes := (hostBytes id).reverse

/-- A statement with what is handed to `PQexecParams` beside it. -/
structure Statement where
  sql : Bytes
  paramsCount : Nat
  arrays : ParamArrays

namespace ModelClass

variable {ρ T : Type} (M : ModelClass ρ T)

/-- The counting loop. -/
def paramsCount : Nat := M.fields.foldl (fun n f => if f.toDb then n + 1 else n) 0

/-- The variables of the loop of `create`. -/
structure CreateLoop where
  fieldsSql : Bytes := []
  valuesSql : Bytes := []
  i : Nat := 0
  arrays : ParamArrays

/-- The loop of `create`; `none` is its early `return false`. -/
def createLoop (t : T) : List (Field T) → CreateLoop → Except OutOfBounds (Option CreateLoop)
  | [], s => .ok (some s)
  | f :: fields, s =>
      if f.toDb then
        let separator := if s.fieldsSql.length > 0 then ascii ", " else []
        let fieldsSql := s.fieldsSql ++ separator ++ ascii f.name
        let valuesSql := s.valuesSql ++ separator ++ ascii "$" ++ ascii (toString (s.i + 1))
        match f.ptr.createBinding t with
        | none => .ok none
        | some b => do
            let arrays ← s.arrays.assign s.i b
            createLoop t fields
              { fieldsSql, valuesSql := valuesSql ++ b.cast, i := s.i + 1, arrays }
      else createLoop t fields s

/-- The statement of `create`. -/
def createStatement (t : T) : Except OutOfBounds (Option Statement) := do
  match ← createLoop t M.fields { arrays := .alloc M.paramsCount } with
  | none => return none
  | some s =>
      let sql := ascii "insert into " ++ ascii M.tableName ++ ascii " (" ++ s.fieldsSql ++
        ascii ") values (" ++ s.valuesSql ++ ascii ") RETURNING (id);"
      return some { sql, paramsCount := M.paramsCount, arrays := s.arrays }

/-- The variables of the loop of `update`. -/
structure UpdateLoop where
  setSql : Bytes := []
  i : Nat := 0
  arrays : ParamArrays

/-- The loop of `update`. -/
def updateLoop (t : T) : List (Field T) → UpdateLoop → Except OutOfBounds (Option UpdateLoop)
  | [], s => .ok (some s)
  | f :: fields, s =>
      if f.toDb then
        let separator := if s.setSql.length > 0 then ascii ", " else []
        let setSql := s.setSql ++ separator ++ ascii f.name ++ ascii "=" ++ ascii "$" ++
          ascii (toString (s.i + 1))
        match f.ptr.updateBinding t with
        | none => .ok none
        | some b => do
            let arrays ← s.arrays.assign s.i b
            updateLoop t fields { setSql := setSql ++ b.cast, i := s.i + 1, arrays }
      else updateLoop t fields s

/-- The statement of `update`. The id is the last parameter. -/
def updateStatement (t : T) : Except OutOfBounds (Option Statement) := do
  let paramsCount := M.paramsCount + 1
  match ← updateLoop t M.fields { arrays := .alloc paramsCount } with
  | none => return none
  | some s =>
      let last := paramsCount - 1
      let idParam := ascii "$" ++ ascii (toString paramsCount) ++ ascii "::integer"
      let arrays ← s.arrays.assign last
        { value := htonl (M.getId t), paramLength := 4, paramFormat := 1, cast := ascii "::integer" }
      let sql := ascii "update " ++ ascii M.tableName ++ ascii " set " ++ s.setSql ++
        ascii " where id=" ++ idParam
      return some { sql, paramsCount, arrays }

end ModelClass

/-! ## 3. Columns -/

/-- A column of a statement. -/
structure Column where
  name : String
  binding : Binding

/-- What is bound for a field of each of the types of the database: the four bytes of an integer as
    binary, the characters of a string or a text behind a pointer as text, each cast to the type. -/
inductive FieldPtr.Binds {T : Type} (t : T) : FieldPtr T → Binding → Prop
  | integer {get : T → Int32} {set : T → Int32 → T} :
      Binds t (.integer get set) ⟨hostBytes (get t), 4, 1, ascii "::integer"⟩
  | string {get : T → Bytes} {set : T → Bytes → T} :
      Binds t (.string get set) ⟨get t ++ [0], 8, 0, ascii "::char(255)"⟩
  | text {get : T → Bytes} {set : T → Bytes → T} :
      Binds t (.text get set) ⟨get t ++ [0], 8, 0, ascii "::text"⟩

/-- The column of a field. -/
structure Field.IsColumn {T : Type} (t : T) (f : Field T) (c : Column) : Prop where
  name : c.name = f.name
  binds : f.ptr.Binds t c.binding

/-- A field of one of the types of the database. -/
def FieldPtr.Stored {T : Type} : FieldPtr T → Prop
  | .integer _ _ | .string _ _ | .text _ _ => True
  | .number | .boolean _ _ => False

/-- Items behind commas. -/
def commas (items : List Bytes) : Bytes := List.intercalate (ascii ", ") items

/-- The placeholder of slot `i`. -/
def placeholder (i : Nat) : Bytes := ascii "$" ++ ascii (toString (i + 1))

/-- The placeholders of columns, with their casts. -/
def placeholders (columns : List Column) : List Bytes :=
  columns.zipIdx.map fun q => placeholder q.2 ++ q.1.binding.cast

/-- The assignments of columns. -/
def setClauses (columns : List Column) : List Bytes :=
  columns.zipIdx.map fun q => ascii q.1.name ++ ascii "=" ++ placeholder q.2 ++ q.1.binding.cast

/-- The parameter for an id: its bytes in network order. -/
def idColumn (id : Int32) : Binding where
  value := bigEndianBytes 4 id.toUInt32.toNat
  paramLength := 4
  paramFormat := 1
  cast := ascii "::integer"

/-- The arrays that hold these bindings, and `n` slots behind them that are not set. -/
def ParamArrays.holding (bindings : List Binding) (n : Nat) : ParamArrays where
  values := bindings.map (fun b => some b.value) ++ List.replicate n none
  paramLengths := bindings.map (fun b => some b.paramLength) ++ List.replicate n none
  paramFormats := bindings.map (fun b => some b.paramFormat) ++ List.replicate n none

/-- The statements of `create` and `update` are those of the columns: each column has its placeholder,
    its cast and its slots at its own position, all slots are set, and `update` has the id behind
    them. -/
structure Aligned {ρ T : Type} (M : ModelClass ρ T) (t : T) (columns : List Column)
    (create update : Statement) : Prop where
  createSql : create.sql = ascii "insert into " ++ ascii M.tableName ++ ascii " (" ++
    commas (columns.map fun c => ascii c.name) ++ ascii ") values (" ++
    commas (placeholders columns) ++ ascii ") RETURNING (id);"
  createCount : create.paramsCount = (placeholders columns).length
  createArrays : create.arrays = .holding (columns.map Column.binding) 0
  updateSql : update.sql = ascii "update " ++ ascii M.tableName ++ ascii " set " ++
    commas (setClauses columns) ++ ascii " where id=" ++
    (placeholder columns.length ++ (idColumn (M.getId t)).cast)
  updateCount : update.paramsCount = (setClauses columns).length + 1
  updateArrays : update.arrays =
    .holding (columns.map Column.binding ++ [idColumn (M.getId t)]) 0

/-! ## 4. One round -/

theorem assignSlot_next {α β : Type} (l : List α) (f : α → Option β) (a : α) (b : β) (n : Nat)
    (hb : f a = some b) : assignSlot (l.map f ++ List.replicate (n + 1) none) l.length b =
      .ok ((l ++ [a]).map f ++ List.replicate n none) := by
  have hlength : (l.map f).length = l.length := List.length_map f
  rw [assignSlot, if_pos (by simp), List.set_append_right _ _ (by simp), hlength, Nat.sub_self,
    List.replicate_succ, List.set_cons_zero, List.map_append, List.map_singleton, hb,
    List.append_assoc]
  rfl

/-- The next slot is set. -/
theorem assign_next (bindings : List Binding) (b : Binding) (n : Nat) :
    (ParamArrays.holding bindings (n + 1)).assign bindings.length b =
      .ok (.holding (bindings ++ [b]) n) := by
  simp only [ParamArrays.assign, ParamArrays.holding,
    assignSlot_next bindings (fun b => some b.value) b b.value n rfl,
    assignSlot_next bindings (fun b => some b.paramLength) b b.paramLength n rfl,
    assignSlot_next bindings (fun b => some b.paramFormat) b b.paramFormat n rfl]
  rfl

theorem commas_concat (items : List Bytes) (x : Bytes) :
    commas (items ++ [x]) = commas items ++ (if items = [] then [] else ascii ", ") ++ x := by
  induction items with
  | nil => simp [commas]
  | cons a items ih =>
      cases items with
      | nil => simp [commas]
      | cons b items =>
          unfold commas at ih ⊢
          rw [List.cons_append, List.cons_append, List.intercalate_cons_cons, ← List.cons_append, ih,
            List.intercalate_cons_cons]
          simp

/-- The separator of the loops: something has been written exactly when there are items. -/
theorem commas_length_pos {items : List Bytes} (h : ∀ x ∈ items, x ≠ []) :
    (commas items).length > 0 ↔ items ≠ [] := by
  constructor
  · intro hlength hnil
    rw [hnil] at hlength
    exact absurd hlength (by decide)
  · intro hne
    obtain ⟨a, rest, rfl⟩ := List.exists_cons_of_ne_nil hne
    have ha : 0 < a.length := List.length_pos_iff.mpr (h a List.mem_cons_self)
    cases rest with
    | nil => simpa [commas] using ha
    | cons b rest =>
        rw [commas, List.intercalate_cons_cons, List.length_append, List.length_append]
        omega

theorem ascii_ne_nil {s : String} (h : s ≠ "") : ascii s ≠ [] := by
  intro hnil
  have hlist : s.toList = [] := List.map_eq_nil_iff.mp hnil
  exact h (String.toList_injective hlist)

/-- One item more, behind the separator of the loop. -/
theorem commas_next {items : List Bytes} (h : ∀ x ∈ items, x ≠ []) (x : Bytes) :
    commas items ++ (if (commas items).length > 0 then ascii ", " else []) ++ x =
      commas (items ++ [x]) := by
  rw [commas_concat]
  by_cases hne : items = []
  · rw [if_pos hne, if_neg (fun hlength => (commas_length_pos h).mp hlength hne)]
  · rw [if_neg hne, if_pos ((commas_length_pos h).mpr hne)]

theorem placeholders_concat (columns : List Column) (c : Column) :
    placeholders (columns ++ [c]) =
      placeholders columns ++ [placeholder columns.length ++ c.binding.cast] := by
  simp [placeholders, List.zipIdx_append]

theorem setClauses_concat (columns : List Column) (c : Column) :
    setClauses (columns ++ [c]) = setClauses columns ++
      [ascii c.name ++ ascii "=" ++ placeholder columns.length ++ c.binding.cast] := by
  simp [setClauses, List.zipIdx_append]

/-- A placeholder or an assignment is not empty. -/
theorem placeholders_ne_nil {columns : List Column} : ∀ x ∈ placeholders columns, x ≠ [] := by
  intro x hx
  obtain ⟨q, -, rfl⟩ := List.mem_map.mp hx
  simp [placeholder, ascii]

theorem setClauses_ne_nil {columns : List Column} : ∀ x ∈ setClauses columns, x ≠ [] := by
  intro x hx
  obtain ⟨q, -, rfl⟩ := List.mem_map.mp hx
  simp [placeholder, ascii]

/-! ## 5. The loops -/

namespace ModelClass

variable {ρ T : Type} {M : ModelClass ρ T} {t : T}

/-- The variables of the loop of `create` when these columns are written. -/
def CreateLoop.after (columns : List Column) (n : Nat) : CreateLoop where
  fieldsSql := commas (columns.map fun c => ascii c.name)
  valuesSql := commas (placeholders columns)
  i := columns.length
  arrays := .holding (columns.map Column.binding) n

/-- The variables of the loop of `update`. -/
def UpdateLoop.after (columns : List Column) (n : Nat) : UpdateLoop where
  setSql := commas (setClauses columns)
  i := columns.length
  arrays := .holding (columns.map Column.binding) n

/-- The names of these columns are not empty. -/
def Named (columns : List Column) : Prop := ∀ c ∈ columns, c.name ≠ ""

theorem named_ne_nil {columns : List Column} (h : Named columns) :
    ∀ x ∈ columns.map (fun c => ascii c.name), x ≠ [] := by
  intro x hx
  obtain ⟨c, hc, rfl⟩ := List.mem_map.mp hx
  exact ascii_ne_nil (h c hc)

/-- Both switches bind what a field of its type has. -/
theorem createBinding_of_binds {p : FieldPtr T} {b : Binding} (h : p.Binds t b) :
    p.createBinding t = some b := by
  cases h with
  | integer | string | text => rfl

theorem updateBinding_of_binds {p : FieldPtr T} {b : Binding} (h : p.Binds t b) :
    p.updateBinding t = some b := by
  cases h with
  | integer | string | text => rfl

/-- The slots of one column more. -/
theorem assign_column (done : List Column) (c : Column) (n : Nat) :
    (ParamArrays.holding (done.map Column.binding) (n + 1)).assign done.length c.binding =
      .ok (.holding ((done ++ [c]).map Column.binding) n) := by
  have h := assign_next (done.map Column.binding) c.binding n
  rw [List.length_map, ← List.map_singleton, ← List.map_append] at h
  exact h

/-- `create` behind one field of the database. -/
theorem createLoop_column {f : Field T} {c : Column} (hdb : f.toDb = true) (hc : f.IsColumn t c)
    {done : List Column} (hdone : Named done) (fields : List (Field T)) (n : Nat) :
    createLoop t (f :: fields) (.after done (n + 1)) = createLoop t fields (.after (done ++ [c]) n) := by
  -- both texts get a separator from the length of the first
  have hboth : (commas (done.map fun c => ascii c.name)).length > 0 ↔
      (commas (placeholders done)).length > 0 := by
    rw [commas_length_pos (named_ne_nil hdone), commas_length_pos placeholders_ne_nil]
    simp [placeholders]
  obtain ⟨before, hbefore⟩ : ∃ before, before = CreateLoop.after done (n + 1) := ⟨_, rfl⟩
  have hnames : before.fieldsSql ++ (if before.fieldsSql.length > 0 then ascii ", " else []) ++
      ascii f.name = commas ((done ++ [c]).map fun c => ascii c.name) := by
    rw [List.map_append, List.map_singleton, ← commas_next (named_ne_nil hdone), hc.name,
      hbefore]
    rfl
  have hplaceholders : before.valuesSql ++
      (if before.fieldsSql.length > 0 then ascii ", " else []) ++
        ascii "$" ++ ascii (toString (before.i + 1)) ++ c.binding.cast =
          commas (placeholders (done ++ [c])) := by
    rw [placeholders_concat, ← commas_next placeholders_ne_nil, ← if_congr hboth rfl rfl, placeholder]
    simp only [List.append_assoc, hbefore]
    rfl
  have hslots : before.arrays.assign before.i c.binding =
      .ok (.holding ((done ++ [c]).map Column.binding) n) := by
    rw [hbefore]
    exact assign_column done c n
  have hi : before.i + 1 = (done ++ [c]).length := by
    rw [hbefore, List.length_append]
    rfl
  rw [hi] at hplaceholders
  rw [← hbefore, createLoop, if_pos hdb]
  simp only [createBinding_of_binds hc.binds, hnames, hplaceholders, hslots, hi]
  rfl

/-- `update` behind one field of the database. -/
theorem updateLoop_column {f : Field T} {c : Column} (hdb : f.toDb = true) (hc : f.IsColumn t c)
    (done : List Column) (fields : List (Field T)) (n : Nat) :
    updateLoop t (f :: fields) (.after done (n + 1)) = updateLoop t fields (.after (done ++ [c]) n) := by
  obtain ⟨before, hbefore⟩ : ∃ before, before = UpdateLoop.after done (n + 1) := ⟨_, rfl⟩
  have hclauses : before.setSql ++ (if before.setSql.length > 0 then ascii ", " else []) ++
      ascii f.name ++ ascii "=" ++ ascii "$" ++ ascii (toString (before.i + 1)) ++ c.binding.cast =
        commas (setClauses (done ++ [c])) := by
    rw [setClauses_concat, ← commas_next setClauses_ne_nil, hc.name, placeholder]
    simp only [List.append_assoc, hbefore]
    rfl
  have hslots : before.arrays.assign before.i c.binding =
      .ok (.holding ((done ++ [c]).map Column.binding) n) := by
    rw [hbefore]
    exact assign_column done c n
  have hi : before.i + 1 = (done ++ [c]).length := by
    rw [hbefore, List.length_append]
    rfl
  rw [hi] at hclauses
  rw [← hbefore, updateLoop, if_pos hdb]
  simp only [updateBinding_of_binds hc.binds, hclauses, hslots, hi]
  rfl

/-- The loops run through, and have written the columns of the fields behind those of before. -/
theorem createLoop_columns {fields : List (Field T)} {columns : List Column}
    (h : List.Forall₂ (Field.IsColumn t) (fields.filter Field.toDb) columns)
    {done : List Column} (hdone : Named done) (hcolumns : Named columns) (n : Nat) :
    createLoop t fields (.after done (columns.length + n)) =
      .ok (some (.after (done ++ columns) n)) := by
  induction fields generalizing done columns with
  | nil =>
      cases h
      simp [createLoop]
  | cons f fields ih =>
      by_cases hdb : f.toDb = true
      · rw [List.filter_cons_of_pos hdb] at h
        cases h with
        | @cons _ c _ columns hc h =>
            have hnext : Named (done ++ [c]) := by
              intro c' hc'
              rcases List.mem_append.mp hc' with hc' | hc'
              · exact hdone c' hc'
              · exact hcolumns c' (List.mem_singleton.mp hc' ▸ List.mem_cons_self)
            rw [List.length_cons, Nat.add_right_comm, createLoop_column hdb hc hdone,
              ih h hnext fun c' hc' => hcolumns c' (List.mem_cons_of_mem c hc'), List.append_assoc]
            rfl
      · rw [List.filter_cons_of_neg hdb] at h
        rw [createLoop, if_neg hdb, ih h hdone hcolumns]

theorem updateLoop_columns {fields : List (Field T)} {columns : List Column}
    (h : List.Forall₂ (Field.IsColumn t) (fields.filter Field.toDb) columns) (done : List Column)
    (n : Nat) : updateLoop t fields (.after done (columns.length + n)) =
      .ok (some (.after (done ++ columns) n)) := by
  induction fields generalizing done columns with
  | nil =>
      cases h
      simp [updateLoop]
  | cons f fields ih =>
      by_cases hdb : f.toDb = true
      · rw [List.filter_cons_of_pos hdb] at h
        cases h with
        | @cons _ c _ columns hc h =>
            rw [List.length_cons, Nat.add_right_comm, updateLoop_column hdb hc, ih h,
              List.append_assoc]
            rfl
      · rw [List.filter_cons_of_neg hdb] at h
        rw [updateLoop, if_neg hdb, ih h]

theorem paramsCount_eq : M.paramsCount = (M.fields.filter Field.toDb).length := by
  have hcount : ∀ (fields : List (Field T)) (n : Nat),
      fields.foldl (fun n f => if f.toDb then n + 1 else n) n =
        n + (fields.filter Field.toDb).length := by
    intro fields
    induction fields with
    | nil => simp
    | cons f fields ih =>
        intro n
        rw [List.foldl_cons, ih]
        by_cases hdb : f.toDb = true
        · rw [if_pos hdb, List.filter_cons_of_pos hdb, List.length_cons]
          omega
        · rw [if_neg hdb, List.filter_cons_of_neg hdb]
  exact (hcount M.fields 0).trans (Nat.zero_add _)

theorem htonl_eq (id : Int32) : htonl id = bigEndianBytes 4 id.toUInt32.toNat :=
  reverse_littleEndianBytes id.toUInt32.toNat_lt

/-- Fields of the types of the database have columns. -/
theorem exists_columns (t : T) {fields : List (Field T)} (h : ∀ f ∈ fields, f.ptr.Stored) :
    ∃ columns, List.Forall₂ (Field.IsColumn t) fields columns := by
  induction fields with
  | nil => exact ⟨[], .nil⟩
  | cons f fields ih =>
      obtain ⟨columns, hcolumns⟩ := ih fun g hg => h g (List.mem_cons_of_mem f hg)
      have hstored := h f List.mem_cons_self
      obtain ⟨b, hb⟩ : ∃ b, f.ptr.Binds t b := by
        cases hptr : f.ptr with
        | integer => exact ⟨_, .integer⟩
        | string => exact ⟨_, .string⟩
        | text => exact ⟨_, .text⟩
        | number | boolean =>
            rw [hptr] at hstored
            exact hstored.elim
      exact ⟨⟨f.name, b⟩ :: columns, .cons ⟨rfl, hb⟩ hcolumns⟩

/-- The columns of the fields of a model have the fields' names. -/
theorem named_columns {fields : List (Field T)} {columns : List Column}
    (h : List.Forall₂ (Field.IsColumn t) fields columns) (hnames : ∀ f ∈ fields, f.name ≠ "") :
    Named columns := by
  induction h with
  | nil => exact fun c hc => by cases hc
  | @cons f c fields columns hc _ ih =>
      obtain ⟨hf, hfields⟩ := List.forall_mem_cons.mp hnames
      exact List.forall_mem_cons.mpr ⟨hc.name.symm ▸ hf, ih hfields⟩

/-! ## 6. The statements of the columns -/

/-- The parameter of a field's slots is stored as the one its model assigns. -/
theorem column_binding {f : Field T} {c : Column} (hc : f.IsColumn t c) :
    ∃ p, f.ptr.param t = some p ∧ p.column = c.binding.param.column := by
  have htext : ∀ s : Bytes, (Param.text s).column =
      (Param.text (cString (s ++ [0]))).column := by
    intro s
    have hzero := cString_append_zeroes s 1
    rw [List.replicate_one] at hzero
    simp only [Param.column, hzero, cString_of_nulFree (nulFree_cString s)]
  obtain ⟨ptr, hptr⟩ : ∃ ptr, ptr = f.ptr := ⟨_, rfl⟩
  have hbinds := hc.binds
  rw [← hptr] at hbinds ⊢
  obtain ⟨b, hb⟩ : ∃ b, b = c.binding := ⟨_, rfl⟩
  rw [← hb] at hbinds ⊢
  cases hbinds with
  | integer => exact ⟨_, rfl, rfl⟩
  | string | text => exact ⟨_, rfl, htext _⟩

/-- The columns of the statements hold what the model's assignments put there. -/
theorem assignments_columns {columns : List Column}
    (h : List.Forall₂ (Field.IsColumn t) (M.fields.filter Field.toDb) columns) :
    ∃ l, M.assignments t = some l ∧
      List.Forall₂ (fun p c => p.1 = c.name ∧ p.2.column = c.binding.param.column) l columns := by
  unfold assignments
  generalize M.fields.filter Field.toDb = fields at h
  induction h with
  | nil => exact ⟨[], rfl, .nil⟩
  | @cons f c fields columns hc _ ih =>
      obtain ⟨l, hl, hcolumns⟩ := ih
      obtain ⟨p, hp, hcolumn⟩ := column_binding hc
      refine ⟨(f.name, p) :: l, ?_, .cons ⟨hc.name.symm, hcolumn⟩ hcolumns⟩
      rw [List.mapM_cons, hp, hl]
      rfl

/-- `create` and `update` build the statements of the columns of the `to_db` fields, in the order of
    the fields, and these columns hold what the model assigns to a row. -/
theorem statements_aligned (M : ModelClass ρ T) (t : T) (hnames : ∀ f ∈ M.fields, f.name ≠ "")
    (htypes : ∀ f ∈ M.fields, f.ptr.Stored) : ∃ columns create update,
    List.Forall₂ (Field.IsColumn t) (M.fields.filter Field.toDb) columns ∧
      M.createStatement t = .ok (some create) ∧ M.updateStatement t = .ok (some update) ∧
        Aligned M t columns create update ∧ ∃ l, M.assignments t = some l ∧
          List.Forall₂ (fun p c => p.1 = c.name ∧ p.2.column = c.binding.param.column) l columns := by
  have hstored : ∀ f ∈ M.fields.filter Field.toDb, f.ptr.Stored :=
    fun f hf => htypes f (List.mem_filter.mp hf).1
  obtain ⟨columns, hcolumns⟩ := exists_columns t hstored
  have hnamed : Named columns :=
    named_columns hcolumns fun f hf => hnames f (List.mem_filter.mp hf).1
  have hcount : M.paramsCount = columns.length := by rw [paramsCount_eq, hcolumns.length_eq]
  have hcreate : createLoop t M.fields { arrays := .alloc M.paramsCount } =
      .ok (some (.after columns 0)) := by
    have hnone : Named [] := fun c hc => by cases hc
    rw [hcount]
    exact createLoop_columns hcolumns hnone hnamed 0
  have hupdate : updateLoop t M.fields { arrays := .alloc (M.paramsCount + 1) } =
      .ok (some (.after columns 1)) := by
    rw [hcount]
    exact updateLoop_columns hcolumns [] 1
  have hid : (UpdateLoop.after columns 1).arrays.assign M.paramsCount (idColumn (M.getId t)) =
      .ok (.holding (columns.map Column.binding ++ [idColumn (M.getId t)]) 0) := by
    have h := assign_next (columns.map Column.binding) (idColumn (M.getId t)) 0
    rw [List.length_map, ← hcount] at h
    exact h
  refine ⟨columns,
    { sql := ascii "insert into " ++ ascii M.tableName ++ ascii " (" ++
        commas (columns.map fun c => ascii c.name) ++ ascii ") values (" ++
        commas (placeholders columns) ++ ascii ") RETURNING (id);"
      paramsCount := M.paramsCount, arrays := .holding (columns.map Column.binding) 0 },
    { sql := ascii "update " ++ ascii M.tableName ++ ascii " set " ++
        commas (setClauses columns) ++ ascii " where id=" ++
        (ascii "$" ++ ascii (toString (M.paramsCount + 1)) ++ ascii "::integer")
      paramsCount := M.paramsCount + 1
      arrays := .holding (columns.map Column.binding ++ [idColumn (M.getId t)]) 0 },
    hcolumns, ?_, ?_, ?_, assignments_columns hcolumns⟩
  · simp only [createStatement, hcreate]
    rfl
  · simp only [updateStatement, hupdate]
    show (do
      let arrays ← (UpdateLoop.after columns 1).arrays.assign M.paramsCount
        ⟨htonl (M.getId t), 4, 1, ascii "::integer"⟩
      return some (Statement.mk _ _ arrays)) = _
    rw [htonl_eq, ← idColumn, hid]
    rfl
  · refine ⟨rfl, ?_, rfl, ?_, ?_, rfl⟩
    · simp [placeholders, hcount]
    · simp [hcount, placeholder, idColumn]
    · simp [setClauses, hcount]

end ModelClass

/-! ## 7. The users -/

theorem statements_aligned_user : ∃ columns create update,
    List.Forall₂ (Field.IsColumn ({ name := ascii "eve" } : User))
        (User.model.fields.filter Field.toDb) columns ∧
      User.model.createStatement { name := ascii "eve" } = .ok (some create) ∧
      User.model.updateStatement { name := ascii "eve" } = .ok (some update) ∧
        Aligned User.model { name := ascii "eve" } columns create update ∧
      ∃ l, User.model.assignments { name := ascii "eve" } = some l ∧
        List.Forall₂ (fun p c => p.1 = c.name ∧ p.2.column = c.binding.param.column) l columns := by
  refine ModelClass.statements_aligned User.model { name := ascii "eve" } ?_ ?_
  · simp [User.model]
  · simp [User.model, FieldPtr.Stored]

end Domoio
