import Domoio.Lib.Unwinding
import Domoio.ReadBack
import Domoio.Requests

/-
  File:      Domoio/Secrets.lean
  Subject:   What the HTTP API shows of the columns it hides
             (include/data_mapper.h, include/models.h, src/httpd/actions).

  The passwords and configurations of devices and the encrypted passwords of users are columns no
  field writes to JSON. `secrets_hidden`: two databases that differ in them only give the same
  responses to every sequence of requests, and keep differing in them only; and no request changes
  the encrypted password of a row there is.
-/

namespace Domoio

open Lib

/-! ## 1. Tables that agree but for some columns -/

def Row.Agree (secrets : List String) (row row' : Row) : Prop :=
  ∀ column, column ∉ secrets → row column = row' column

/-- The tables have the same rows, but for the columns in `secrets`. -/
structure Table.Agree (secrets : List String) (table table' : Table) : Prop where
  nextId : table.nextId = table'.nextId
  rows : ∀ id : Int32, Option.Rel (Row.Agree secrets) table.rows[id]? table'.rows[id]?

section Agree

variable {secrets : List String} {table table' : Table} {row row' : Row}

/-- The row with the columns in `secrets` emptied. -/
def Row.hide (secrets : List String) (row : Row) : Row :=
  fun column => if column ∈ secrets then [] else row column

theorem Row.Agree.hide (h : Row.Agree secrets row row') :
    Row.hide secrets row = Row.hide secrets row' := by
  funext column
  by_cases hcolumn : column ∈ secrets
  · simp [Row.hide, hcolumn]
  · simp [Row.hide, hcolumn, h column hcolumn]

theorem Row.Agree.update (h : Row.Agree secrets row row') {column : String} {v v' : Bytes}
    (hv : column ∉ secrets → v = v') :
    Row.Agree secrets (Function.update row column v) (Function.update row' column v') := by
  intro other hother
  by_cases heq : other = column
  · subst heq
    simpa using hv hother
  · simpa [heq] using h other hother

theorem Table.Agree.insert (h : Table.Agree secrets table table') (id : Int32)
    (hrow : Row.Agree secrets row row') {next next' : Int32} (hnext : next = next') :
    Table.Agree secrets ⟨table.rows.insert id row, next⟩ ⟨table'.rows.insert id row', next'⟩ where
  nextId := hnext
  rows j := by
    by_cases hj : j = id
    · subst hj
      simpa using Option.Rel.some hrow
    · rw [OrderedMap.getElem?_insert_ne hj, OrderedMap.getElem?_insert_ne hj]
      exact h.rows j

/-- The rows, in the order of their ids. -/
theorem Table.Agree.toList (h : Table.Agree secrets table table') :
    List.Forall₂ (fun p p' => p.1 = p'.1 ∧ Row.Agree secrets p.2 p'.2) table.rows.toList
      table'.rows.toList := by
  have hsame : table.rows.map (fun _ => Row.hide secrets) =
      table'.rows.map (fun _ => Row.hide secrets) := by
    apply Std.ExtTreeMap.ext_getElem?
    intro id
    rw [Std.ExtTreeMap.getElem?_map, Std.ExtTreeMap.getElem?_map]
    have hrel := h.rows id
    generalize table.rows[id]? = o at hrel ⊢
    generalize table'.rows[id]? = o' at hrel ⊢
    cases hrel with
    | none => rfl
    | some hrow => exact congrArg some hrow.hide
  have hlists := congrArg Std.ExtTreeMap.toList hsame
  rw [Std.ExtTreeMap.toList_map, Std.ExtTreeMap.toList_map, ← List.forall₂_eq_eq_eq,
    List.forall₂_map_left_iff, List.forall₂_map_right_iff] at hlists
  refine hlists.imp fun p p' hp => ?_
  obtain ⟨hid, hrow⟩ := Prod.mk.inj hp
  refine ⟨hid, fun column hcolumn => ?_⟩
  have hvalue := congrFun hrow column
  simpa [Row.hide, hcolumn] using hvalue

end Agree

/-! ## 2. Models with hidden columns -/

/-- The parameters two objects bind are the same, but for the columns in `secrets`. -/
def ColumnsAgree (secrets : List String) : List (String × Param) → List (String × Param) → Prop :=
  List.Forall₂ fun p p' => p.1 = p'.1 ∧ (p.1 ∉ secrets → p.2 = p'.2)

/-- What a model shows. `shown` empties the hidden members of an object: its document does not
    depend on them, and nothing the object does makes what is shown depend on them. -/
structure Shows {ρ T : Type} (M : ModelClass ρ T) (secrets : List String) (blank : T)
    (shown : T → T) : Prop where
  getId : ∀ t, M.getId (shown t) = M.getId t
  setId : ∀ t id, shown (M.setId t id) = M.setId (shown t) id
  toJsonObject : ∀ env t, M.toJsonObject env (shown t) = M.toJsonObject env t
  fromJsonObject : ∀ doc t,
    (M.fromJsonObject doc t).map shown = (M.fromJsonObject doc (shown t)).map shown
  beforeSave : ∀ c env t, shown (M.beforeSave c env t) = M.beforeSave c env (shown t)
  loadFromRes : ∀ c id row row', Row.Agree secrets row row' →
    (M.loadFromRes c id row blank).map shown = (M.loadFromRes c id row' blank).map shown
  assignments : ∀ t t', shown t = shown t' →
    Option.Rel (ColumnsAgree secrets) (M.assignments t) (M.assignments t')

theorem Row.Agree.assignRow {secrets : List String} {columns columns' : List (String × Param)}
    (h : ColumnsAgree secrets columns columns') {row row' : Row} (hrow : Row.Agree secrets row row') :
    Row.Agree secrets (ModelClass.assignRow row columns) (ModelClass.assignRow row' columns') := by
  induction h generalizing row row' with
  | nil => exact hrow
  | @cons p p' l l' hp hl ih =>
      obtain ⟨hname, hvalue⟩ := hp
      refine ih ?_
      show Row.Agree secrets (Function.update row p.1 p.2.column)
        (Function.update row' p'.1 p'.2.column)
      rw [← hname]
      exact hrow.update fun hcolumn => congrArg Param.column (hvalue hcolumn)

/-- Two results that show the same. -/
theorem map_eq_map {ε α β : Type} {f : α → β} {x x' : Except ε α} (h : x.map f = x'.map f) :
    (∃ e, x = .error e ∧ x' = .error e) ∨ ∃ a a', x = .ok a ∧ x' = .ok a' ∧ f a = f a' := by
  cases x with
  | error e =>
      cases x' with
      | error e' =>
          obtain rfl : e = e' := Except.error.inj h
          exact Or.inl ⟨e, rfl, rfl⟩
      | ok a' => cases h
  | ok a =>
      cases x' with
      | error e' => cases h
      | ok a' => exact Or.inr ⟨a, a', rfl, rfl, Except.ok.inj h⟩

namespace Shows

variable {ρ T : Type} {M : ModelClass ρ T} {secrets : List String} {blank : T} {shown : T → T}
  {c : Cajun} {table table' : Table} {t t' : T} {statements : Statements}

theorem getId_eq (h : Shows M secrets blank shown) (ht : shown t = shown t') :
    M.getId t = M.getId t' := by rw [← h.getId t, ht, h.getId t']

theorem toJsonObject_eq (h : Shows M secrets blank shown) (ht : shown t = shown t') (env : ρ) :
    M.toJsonObject env t = M.toJsonObject env t' := by
  rw [← h.toJsonObject env t, ht, h.toJsonObject env t']

theorem toJson_eq (h : Shows M secrets blank shown) (ht : shown t = shown t') (env : ρ) :
    M.toJson c env t = M.toJson c env t' := congrArg c.write (h.toJsonObject_eq ht env)

theorem fromJson (h : Shows M secrets blank shown) (ht : shown t = shown t') (c : Cajun)
    (str : Bytes) :
    (M.fromJson c str t).map shown = (M.fromJson c str t').map shown := by
  simp only [ModelClass.fromJson]
  cases c.read str with
  | error e => rfl
  | ok doc =>
      show (M.fromJsonObject doc t).map shown = (M.fromJsonObject doc t').map shown
      rw [h.fromJsonObject doc t, ht, ← h.fromJsonObject doc t']

/-- A load from tables that agree. -/
theorem load (h : Shows M secrets blank shown) (ha : table.Agree secrets table') (id : Int32) :
    (M.loadWhen statements c table id blank).map (Prod.map shown fun b => b) =
      (M.loadWhen statements c table' id blank).map (Prod.map shown fun b => b) := by
  unfold ModelClass.loadWhen
  by_cases hselect : statements.select = true
  · simp only [if_pos hselect, ModelClass.loadFromDb]
    have hrel := ha.rows id
    generalize table.rows[id]? = o at hrel ⊢
    generalize table'.rows[id]? = o' at hrel ⊢
    cases hrel with
    | none => rfl
    | some hrow =>
        rcases map_eq_map (h.loadFromRes c id _ _ hrow) with ⟨e, he, he'⟩ | ⟨t, t', ht, ht', hshown⟩
        · simp only [he, he']
        · simp only [ht, ht']
          exact congrArg Except.ok (Prod.ext hshown rfl)
  · simp only [if_neg hselect]

theorem mapM_load (h : Shows M secrets blank shown) {rows rows' : List (Int32 × Row)}
    (hrows : List.Forall₂ (fun p p' => p.1 = p'.1 ∧ Row.Agree secrets p.2 p'.2) rows rows') :
    (rows.mapM fun p => M.loadFromRes c p.1 p.2 blank).map (List.map shown) =
      (rows'.mapM fun p => M.loadFromRes c p.1 p.2 blank).map (List.map shown) := by
  induction hrows with
  | nil => rfl
  | @cons p p' l l' hp hl ih =>
      obtain ⟨hid, hrow⟩ := hp
      simp only [List.mapM_cons, ← hid]
      rcases map_eq_map (h.loadFromRes c p.1 _ _ hrow) with ⟨e, he, he'⟩ | ⟨t, t', ht, ht', hshown⟩
      · simp only [he, he']
        rfl
      · simp only [ht, ht']
        rcases map_eq_map ih with ⟨e, he, he'⟩ | ⟨ts, ts', hts, hts', hmap⟩
        · simp only [he, he']
          rfl
        · simp only [hts, hts']
          exact congrArg Except.ok (congrArg₂ List.cons hshown hmap)

/-- All rows of tables that agree. -/
theorem all (h : Shows M secrets blank shown) (ha : table.Agree secrets table') :
    (Httpd.allWhen M statements c blank table).map (List.map shown) =
      (Httpd.allWhen M statements c blank table').map (List.map shown) := by
  unfold Httpd.allWhen
  by_cases hselect : statements.select = true
  · simp only [if_pos hselect]
    exact h.mapM_load ha.toList
  · simp only [if_neg hselect]

theorem update (h : Shows M secrets blank shown) (ha : table.Agree secrets table')
    (ht : shown t = shown t') :
    Option.Rel (Table.Agree secrets) (M.update table t) (M.update table' t') := by
  have hcolumns := h.assignments t t' ht
  unfold ModelClass.update
  rw [← h.getId_eq ht]
  generalize M.assignments t = columns at hcolumns ⊢
  generalize M.assignments t' = columns' at hcolumns ⊢
  cases hcolumns with
  | none => exact .none
  | some hcolumns =>
      refine .some ?_
      have hrel := ha.rows (M.getId t)
      generalize table.rows[M.getId t]? = o at hrel ⊢
      generalize table'.rows[M.getId t]? = o' at hrel ⊢
      cases hrel with
      | none => exact ha
      | some hrow => exact ha.insert _ (hrow.assignRow hcolumns) ha.nextId

theorem create (h : Shows M secrets blank shown) (ha : table.Agree secrets table')
    (ht : shown t = shown t') :
    Option.Rel (fun r r' : Table × T => r.1.Agree secrets r'.1 ∧ shown r.2 = shown r'.2)
      (M.create table t) (M.create table' t') := by
  have hcolumns := h.assignments t t' ht
  unfold ModelClass.create
  generalize M.assignments t = columns at hcolumns ⊢
  generalize M.assignments t' = columns' at hcolumns ⊢
  cases hcolumns with
  | none => exact .none
  | some hcolumns =>
      have hempty : Row.Agree secrets (fun _ => []) (fun _ => []) := fun _ _ => rfl
      refine .some ⟨?_, ?_⟩
      · rw [← ha.nextId]
        exact ha.insert _ (hempty.assignRow hcolumns) rfl
      · rw [h.setId, ht, ha.nextId, ← h.setId]

/-- A save of objects that show the same, to tables that agree. -/
theorem save (h : Shows M secrets blank shown) (ha : table.Agree secrets table')
    (ht : shown t = shown t') (env : ρ) :
    (M.saveWhen statements c env table t).1.Agree secrets (M.saveWhen statements c env table' t').1 ∧
      shown (M.saveWhen statements c env table t).2.1 =
        shown (M.saveWhen statements c env table' t').2.1 := by
  have hbefore : shown (M.beforeSave c env t) = shown (M.beforeSave c env t') := by
    rw [h.beforeSave, ht, ← h.beforeSave]
  have hid := h.getId_eq hbefore
  have hnew : table.nextId ∈ table.rows ↔ table'.nextId ∈ table'.rows := by
    have hrel := ha.rows table'.nextId
    rw [ha.nextId, Std.ExtTreeMap.mem_iff_isSome_getElem?, Std.ExtTreeMap.mem_iff_isSome_getElem?]
    generalize table.rows[table'.nextId]? = o at hrel ⊢
    generalize table'.rows[table'.nextId]? = o' at hrel ⊢
    cases hrel with
    | none => exact Iff.rfl
    | some hrow => exact Iff.rfl
  unfold ModelClass.saveWhen
  by_cases hwrite : statements.write = true ∧
      (M.getId (M.beforeSave c env t) ≠ 0 ∨ table.nextId ∉ table.rows)
  · have hwrite' : statements.write = true ∧
        (M.getId (M.beforeSave c env t') ≠ 0 ∨ table'.nextId ∉ table'.rows) := by
      rw [← hid, ← hnew]
      exact hwrite
    simp only [if_pos hwrite, if_pos hwrite', ModelClass.save]
    rw [← hid]
    by_cases hold : M.getId (M.beforeSave c env t) ≠ 0
    · have hupdate := h.update ha hbefore
      simp only [if_pos hold]
      generalize M.update table _ = o at hupdate ⊢
      generalize M.update table' _ = o' at hupdate ⊢
      cases hupdate with
      | none => exact ⟨ha, hbefore⟩
      | some hagree => exact ⟨hagree, hbefore⟩
    · have hcreate := h.create ha hbefore
      simp only [if_neg hold]
      generalize M.create table _ = o at hcreate ⊢
      generalize M.create table' _ = o' at hcreate ⊢
      cases hcreate with
      | none => exact ⟨ha, hbefore⟩
      | some hagree => exact hagree
  · have hwrite' : ¬ (statements.write = true ∧
        (M.getId (M.beforeSave c env t') ≠ 0 ∨ table'.nextId ∉ table'.rows)) := by
      rw [← hid, ← hnew]
      exact hwrite
    simp only [if_neg hwrite, if_neg hwrite']
    exact ⟨ha, hbefore⟩

end Shows

/-! ## 3. Users and devices -/

def userSecrets : List String := ["encrypted_password"]

def deviceSecrets : List String := ["password", "config"]

def User.shown (u : User) : User := { u with encryptedPassword := [] }

def Device.shown (d : Device) : Device := { d with password := [], configRaw := [] }

theorem User.shows : Shows User.model userSecrets {} User.shown where
  getId _ := rfl
  setId _ _ := rfl
  toJsonObject _ _ := rfl
  fromJsonObject doc u := by
    rw [userFromJson_eq, userFromJson_eq]
    rfl
  beforeSave _ _ _ := rfl
  loadFromRes c id row row' h := by
    have hload : ∀ row, User.model.loadFromRes c id row {} = .ok (userOfRow id row) := fun _ => rfl
    have hname := h "name" (by decide)
    have hemail := h "email" (by decide)
    rw [hload, hload]
    exact congrArg Except.ok (by simp [User.shown, userOfRow, hname, hemail])
  assignments u u' h := by
    have hname : u.shown.name = u'.shown.name := congrArg User.name h
    have hemail : u.shown.email = u'.shown.email := congrArg User.email h
    refine .some (.cons ⟨rfl, fun _ => ?_⟩ (.cons ⟨rfl, fun _ => ?_⟩ (.cons ⟨rfl, fun hs => ?_⟩ .nil)))
    · exact congrArg Param.text hname
    · exact congrArg Param.text hemail
    · exact absurd (List.mem_singleton.mpr rfl) hs

theorem device_loadFromRes (c : Cajun) (id : Int32) (row : Row) :
    Device.model.loadFromRes c id row {} =
      (Specifications.model.fromJson c (row "specifications") {}).map (deviceOfRow id row) := by
  have hload : Device.model.loadFields id row Device.model.fields {} =
      some (deviceOfRow id row {}) := rfl
  simp only [ModelClass.loadFromRes, hload]
  show ((Specifications.model.fromJson c (row "specifications") {}).bind fun specs =>
    .ok (deviceOfRow id row specs)) = _
  cases Specifications.model.fromJson c (row "specifications") {} with
  | error e => rfl
  | ok specs => rfl

theorem Device.shows : Shows Device.model deviceSecrets {} Device.shown where
  getId _ := rfl
  setId _ _ := rfl
  toJsonObject _ _ := rfl
  fromJsonObject doc d := by
    rw [deviceFromJson_eq, deviceFromJson_eq]
    show _ = ((Specifications.model.fromJsonObject (Object.get doc "specifications").toObject
      d.specifications).map _).map _
    cases Specifications.model.fromJsonObject (Object.get doc "specifications").toObject
      d.specifications with
    | error e => rfl
    | ok specs => rfl
  beforeSave _ _ _ := rfl
  loadFromRes c id row row' h := by
    have hlabel := h "label" (by decide)
    have hspecs := h "specifications" (by decide)
    have htype := h "type" (by decide)
    rw [device_loadFromRes, device_loadFromRes, ← hspecs]
    cases Specifications.model.fromJson c (row "specifications") {} with
    | error e => rfl
    | ok specs =>
        exact congrArg Except.ok (by simp [Device.shown, deviceOfRow, hlabel, hspecs, htype])
  assignments d d' h := by
    have hlabel : d.shown.label = d'.shown.label := congrArg Device.label h
    have hspecs : d.shown.specificationsRaw = d'.shown.specificationsRaw :=
      congrArg Device.specificationsRaw h
    have htype : d.shown.type = d'.shown.type := congrArg Device.type h
    have hpassword : "password" ∈ deviceSecrets := by decide
    have hconfig : "config" ∈ deviceSecrets := by decide
    refine .some (.cons ⟨rfl, fun _ => ?_⟩ (.cons ⟨rfl, fun hs => ?_⟩ (.cons ⟨rfl, fun _ => ?_⟩
      (.cons ⟨rfl, fun hs => ?_⟩ (.cons ⟨rfl, fun _ => ?_⟩ .nil)))))
    · exact congrArg Param.text hlabel
    · exact absurd hpassword hs
    · exact congrArg Param.text hspecs
    · exact absurd hconfig hs
    · exact congrArg Param.text htype

/-! ## 4. The actions -/

namespace Httpd

/-- The observer cannot tell the outcomes of a request apart, and the tables they leave agree. -/
inductive Alike (secrets : List String) :
    Except JsonException Reply → Except JsonException Reply → Prop where
  | error (e : JsonException) : Alike secrets (.error e) (.error e)
  | ok {reply reply' : Reply} (ha : reply.table.Agree secrets reply'.table)
      (hr : reply.responseData = reply'.responseData) : Alike secrets (.ok reply) (.ok reply')

namespace actions

section Resource

variable {ρ T : Type} {M : ModelClass ρ T} {secrets : List String} {blank : T} {shown : T → T}
  {c : Cajun} {table table' : Table} {statements : Statements}

theorem resourceWhen_alike (h : Shows M secrets blank shown) (ha : table.Agree secrets table')
    (env : ρ) (request : Request) :
    Alike secrets (resourceWhen M blank statements c env table request)
      (resourceWhen M blank statements c env table' request) := by
  unfold resourceWhen resourceWith
  dsimp only [Httpd.queriesWhen]
  split_ifs
  · rcases map_eq_map (h.all ha) with ⟨e, he, he'⟩ | ⟨ts, ts', hts, hts', hshown⟩
    · rw [he, he']
      exact .error e
    · rw [hts, hts']
      have hdocs : ts.map (fun t => Json.object (M.toJsonObject env t)) =
          ts'.map fun t => Json.object (M.toJsonObject env t) := by
        have hmap := congrArg (List.map fun t => Json.object (M.toJsonObject env t)) hshown
        simpa [List.map_map, Function.comp_def, h.toJsonObject] using hmap
      exact .ok ha (congrArg (fun docs => some (c.writeArray docs)) hdocs)
  · rcases map_eq_map (h.load ha _) with ⟨e, he, he'⟩ | ⟨r, r', hr, hr', hshown⟩
    · rw [he, he']
      exact .error e
    · rw [hr, hr']
      exact .ok ha (congrArg some (h.toJson_eq (congrArg Prod.fst hshown) env))
  · cases M.fromJson c request.postDataRaw blank with
    | error e => exact .error e
    | ok t =>
        obtain ⟨hagree, hshown⟩ := h.save ha (Eq.refl (shown t)) env
        exact .ok hagree (congrArg some (h.toJson_eq hshown env))
  · rcases map_eq_map (h.load ha _) with ⟨e, he, he'⟩ | ⟨r, r', hr, hr', hloaded⟩
    · rw [he, he']
      exact .error e
    · rw [hr, hr']
      have hfrom := h.fromJson (congrArg Prod.fst hloaded) c request.postDataRaw
      rcases map_eq_map hfrom with ⟨e, he, he'⟩ | ⟨t, t', ht, ht', hshown⟩
      · simp only [bind, Except.bind, he, he']
        exact .error e
      · simp only [bind, Except.bind, ht, ht']
        obtain ⟨hagree, hshown⟩ := h.save ha hshown env
        exact .ok hagree (congrArg some (h.toJson_eq hshown env))
  · exact .ok ha rfl

end Resource

section Ports

variable {c : Cajun} {table table' : Table} {statements : Statements} {d d' : Device}

theorem portsLoadedWhen_alike (ha : table.Agree deviceSecrets table') (hd : d.shown = d'.shown)
    (env : Registry) (request : Request) :
    Alike deviceSecrets (portsLoadedWhen statements c env table request d)
      (portsLoadedWhen statements c env table' request d') := by
  have hspecs : d.shown.specifications = d'.shown.specifications :=
    congrArg Device.specifications hd
  have hspecs : d.specifications = d'.specifications := hspecs
  have hport : ∀ id, d.getPort id = d'.getPort id := by
    intro id
    rw [Device.getPort, Device.getPort, hspecs]
  -- a port put into both devices
  have hput : ∀ key port, (d.putPort key port).shown = (d'.putPort key port).shown := by
    intro key port
    have hput : (d.shown.putPort key port) = d'.shown.putPort key port := by rw [hd]
    exact hput
  unfold portsLoadedWhen portsLoadedWith
  dsimp only [Httpd.queriesWhen]
  cases request.method with
  | get =>
      simp only [hport]
      cases d'.getPort (request.paramInt "id") with
      | none => exact .ok ha rfl
      | some p => exact .ok ha rfl
  | post =>
      cases Port.model.fromJson c request.postDataRaw {} with
      | error e => exact .error e
      | ok port => exact .ok (Device.shows.save ha (hput port.id port) env).1 rfl
  | put =>
      simp only [hport]
      cases d'.getPort (request.paramInt "id") with
      | none => exact .ok ha rfl
      | some p =>
          obtain ⟨key, port⟩ := p
          cases hjson : Port.model.fromJson c request.postDataRaw port with
          | error e =>
              simp only [hjson]
              exact .error e
          | ok port =>
              simp only [hjson]
              exact .ok (Device.shows.save ha (hput key port) env).1 rfl
  | options | delete | other => exact .ok ha rfl

theorem portsWhen_alike (ha : table.Agree deviceSecrets table') (env : Registry)
    (request : Request) :
    Alike deviceSecrets (portsWhen statements c env table request)
      (portsWhen statements c env table' request) := by
  unfold portsWhen portsWith
  dsimp only [Httpd.queriesWhen]
  have hload : (Device.model.loadWhen statements c table (request.paramInt "device_id") {}).map
      (Prod.map Device.shown fun b => b) =
        (Device.model.loadWhen statements c table' (request.paramInt "device_id") {}).map
          (Prod.map Device.shown fun b => b) := Device.shows.load ha _
  rcases map_eq_map hload with ⟨e, he, he'⟩ | ⟨r, r', hr, hr', hshown⟩
  · rw [he, he']
    exact .error e
  · rw [hr, hr']
    obtain ⟨d, loaded⟩ := r
    obtain ⟨d', loaded'⟩ := r'
    obtain ⟨hd, rfl⟩ := Prod.mk.inj hshown
    cases loaded with
    | false => exact .ok ha rfl
    | true => exact portsLoadedWhen_alike ha hd env request

end Ports

end actions

end Httpd

/-! ## 5. Sequences of requests -/

structure Database.Agree (db db' : Database) : Prop where
  devices : db.devices.Agree deviceSecrets db'.devices
  users : db.users.Agree userSecrets db'.users

section Serve

variable {c : Cajun} {db db' : Database}

theorem Database.reply_alike {secrets : List String} {put put' : Table → Database}
    {r r' : Except JsonException Httpd.Reply} (h : Httpd.Alike secrets r r') (hdb : db.Agree db')
    (hput : ∀ table table' : Table, table.Agree secrets table' → (put table).Agree (put' table')) :
    (db.reply put r).2 = (db'.reply put' r').2 ∧ (db.reply put r).1.Agree (db'.reply put' r').1 := by
  cases h with
  | error e => exact ⟨rfl, hdb⟩
  | ok ha hr => exact ⟨congrArg Except.ok hr, hput _ _ ha⟩

/-- The step lemma: a request is answered alike by databases that agree, and they go on to agree. -/
theorem Database.serve_agree (hdb : db.Agree db') (call : Call) :
    (db.serve c call).2 = (db'.serve c call).2 ∧ (db.serve c call).1.Agree (db'.serve c call).1 := by
  unfold Database.serve
  cases call.action with
  | devices =>
      exact Database.reply_alike (Httpd.actions.resourceWhen_alike Device.shows hdb.devices _ _) hdb
        fun table table' h => ⟨h, hdb.users⟩
  | users =>
      exact Database.reply_alike (Httpd.actions.resourceWhen_alike User.shows hdb.users _ _) hdb
        fun table table' h => ⟨hdb.devices, h⟩
  | ports =>
      exact Database.reply_alike (Httpd.actions.portsWhen_alike hdb.devices _ _) hdb
        fun table table' h => ⟨h, hdb.users⟩

theorem serve_unwinding (c : Cajun) : Unwinding (Database.serve c) Database.Agree where
  answer call h := (Database.serve_agree h call).1
  state call h := (Database.serve_agree h call).2

end Serve

/-! ## 6. The encrypted passwords of the rows there are -/

/-- User `id` has a row, with this encrypted password. -/
def Table.HasPassword (table : Table) (id : Int32) (password : Bytes) : Prop :=
  ∃ row, table.rows[id]? = some row ∧ row "encrypted_password" = password

section Password

variable {c : Cajun} {env : Registry} {table : Table} {id : Int32} {password : Bytes} {u : User}
  {statements : Statements}

/-- A save of a user that is new, or has the password of its row. -/
theorem Table.HasPassword.save (h : table.HasPassword id password)
    (hu : u.id = id → u.id ≠ 0 → cString u.encryptedPassword = password) :
    (User.model.saveWhen statements c env table u).1.HasPassword id password := by
  obtain ⟨row, hr, hp⟩ := h
  unfold ModelClass.saveWhen
  dsimp only
  split_ifs with hwrite
  · by_cases hid : u.id ≠ 0
    · cases hrow : table.rows[u.id]? with
      | none =>
          have hsave : (User.model.save c env table u).1 = table := by
            have hassign : User.model.assignments u = some [("name", .text u.name),
              ("email", .text u.email), ("encrypted_password", .text u.encryptedPassword)] := rfl
            have hid' : User.model.getId u = u.id := rfl
            have hbefore : User.model.beforeSave c env u = u := rfl
            simp only [ModelClass.save, hbefore, hid', if_pos hid, ModelClass.update, hassign, hrow]
            rfl
          rw [hsave]
          exact ⟨row, hr, hp⟩
      | some row' =>
          rw [user_save hid hrow]
          by_cases hj : u.id = id
          · subst hj
            refine ⟨_, Std.ExtTreeMap.getElem?_insert_self, ?_⟩
            simp [updatedUserRow, hu rfl hid]
          · refine ⟨row, ?_, hp⟩
            rw [OrderedMap.getElem?_insert_ne fun heq => hj heq.symm]
            exact hr
    · -- the new row has an id no row has
      have hnew : table.nextId ∉ table.rows := by
        rcases hwrite.2 with hold | hnew
        · exact absurd hold hid
        · exact hnew
      have hne : id ≠ table.nextId := by
        intro heq
        refine hnew (Std.ExtTreeMap.mem_iff_isSome_getElem?.mpr ?_)
        rw [← heq, hr]
        rfl
      have hid' : User.model.getId (User.model.beforeSave c env u) = u.id := rfl
      refine ⟨row, ?_, hp⟩
      simp only [ModelClass.save, hid', if_neg hid]
      rw [← hr]
      exact OrderedMap.getElem?_insert_ne hne
  · exact ⟨row, hr, hp⟩

/-- A user that is loaded has the password of its row; one that is not is new. -/
theorem loadWhen_user (statements : Statements) (c : Cajun) (table : Table) (n : Int32) :
    ∃ u loaded, User.model.loadWhen statements c table n {} = .ok (u, loaded) ∧
      ∀ {id password}, table.HasPassword id password → u.id = id → u.id ≠ 0 →
        password = u.encryptedPassword := by
  unfold ModelClass.loadWhen
  by_cases hselect : statements.select = true
  · rw [if_pos hselect]
    cases hr : table.rows[n]? with
    | none =>
        refine ⟨{}, false, ?_, fun _ _ hne => absurd rfl hne⟩
        simp only [ModelClass.loadFromDb, hr]
    | some row =>
        refine ⟨userOfRow n row, true, user_loadFromDb hr, fun h heq _ => ?_⟩
        obtain ⟨row', hr', hp⟩ := h
        have heq : n = _ := heq
        rw [← heq, hr] at hr'
        cases hr'
        exact hp.symm
  · rw [if_neg hselect]
    exact ⟨{}, false, rfl, fun _ _ hne => absurd rfl hne⟩

theorem users_hasPassword (h : table.HasPassword id password) (hp : NulFree password)
    {request : Httpd.Request} {reply : Httpd.Reply}
    (hreply : Httpd.actions.resourceWhen User.model {} statements c env table request = .ok reply) :
    reply.table.HasPassword id password := by
  unfold Httpd.actions.resourceWhen Httpd.actions.resourceWith at hreply
  dsimp only [Httpd.queriesWhen] at hreply
  split_ifs at hreply
  · obtain ⟨collection, -, hreply⟩ := bind_eq_ok hreply
    cases hreply
    exact h
  · obtain ⟨r, -, hreply⟩ := bind_eq_ok hreply
    cases hreply
    exact h
  · obtain ⟨u, hu, hreply⟩ := bind_eq_ok hreply
    cases hreply
    have hid : u.id = 0 := (user_fromJson hu).1
    exact h.save fun _ hne => absurd hid hne
  · obtain ⟨u, loaded, hload, hu⟩ := loadWhen_user statements c table (request.paramInt "id")
    obtain ⟨r, hr, hreply⟩ := bind_eq_ok hreply
    rw [hload] at hr
    cases hr
    obtain ⟨u', hu', hreply⟩ := bind_eq_ok hreply
    cases hreply
    obtain ⟨hid, hpassword⟩ := user_fromJson hu'
    refine h.save fun heq hne => ?_
    rw [hid] at heq hne
    rw [hpassword, ← hu h heq hne]
    exact cString_of_nulFree hp
  · cases hreply
    exact h

end Password

/-- A request leaves every user there is the encrypted password. -/
theorem Database.serve_hasPassword (c : Cajun) {id : Int32} {password : Bytes}
    (hp : NulFree password) (db : Database) (call : Call)
    (h : db.users.HasPassword id password) : (db.serve c call).1.users.HasPassword id password := by
  unfold Database.serve
  cases call.action with
  | devices =>
      cases Httpd.actions.resourceWhen Device.model {} call.statements c call.env db.devices
        call.request with
      | error e => exact h
      | ok reply => exact h
  | users =>
      cases hreply : Httpd.actions.resourceWhen User.model {} call.statements c call.env db.users
        call.request with
      | error e => exact h
      | ok reply => exact users_hasPassword h hp hreply
  | ports =>
      cases Httpd.actions.portsWhen call.statements c call.env db.devices call.request with
      | error e => exact h
      | ok reply => exact h

/-- Databases that agree but for the hidden columns are told apart by no sequence of requests, and
    agree after each of its requests; and a user there is keeps its encrypted password. -/
theorem secrets_hidden (c : Cajun) (db db' : Database) (calls : List Call) (h : db.Agree db') :
    (serveAll (Database.serve c) db calls).2 = (serveAll (Database.serve c) db' calls).2 ∧
    (∀ n, (serveAll (Database.serve c) db (calls.take n)).1.Agree
      (serveAll (Database.serve c) db' (calls.take n)).1) ∧
    ∀ id password, NulFree password → db.users.HasPassword id password →
      ∀ n, (serveAll (Database.serve c) db (calls.take n)).1.users.HasPassword id password := by
  refine ⟨((serve_unwinding c).run h calls).1, fun n => ((serve_unwinding c).run h _).2, ?_⟩
  intro id password hp hdb n
  exact serveAll_invariant (fun db call => Database.serve_hasPassword c hp db call) hdb _

/-- The porch and its visitor, with a password for both. -/
def porchDatabase (secret : Bytes) : Database where
  devices := ⟨(∅ : Std.ExtTreeMap Int32 Row).insert 7
    (Function.update Httpd.porchRow "password" secret), 8⟩
  users := ⟨(∅ : Std.ExtTreeMap Int32 Row).insert 7
    (Function.update Httpd.porchRow "encrypted_password" secret), 8⟩

theorem porchDatabase_agree (secret secret' : Bytes) :
    (porchDatabase secret).Agree (porchDatabase secret') := by
  have hempty : ∀ secrets, Table.Agree secrets ⟨∅, 8⟩ ⟨∅, 8⟩ := fun _ => ⟨rfl, fun _ => .none⟩
  have hrow : ∀ secrets, Row.Agree secrets Httpd.porchRow Httpd.porchRow := fun _ _ _ => rfl
  have hpassword : "password" ∈ deviceSecrets := by decide
  have hencrypted : "encrypted_password" ∈ userSecrets := by decide
  exact ⟨(hempty _).insert 7 ((hrow _).update fun hs => absurd hpassword hs) rfl,
    (hempty _).insert 7 ((hrow _).update fun hs => absurd hencrypted hs) rfl⟩

/-- The visitor is updated, the porch and all users are read. -/
def porchCalls : List Call :=
  [{ action := .users, env := fun _ => none
     request := ⟨.put, fun _ => ascii "7", Httpd.porchCajun.write Httpd.visitorDoc⟩ },
    { action := .devices, env := fun _ => none, request := ⟨.get, fun _ => ascii "7", []⟩ },
    { action := .users, env := fun _ => none, request := ⟨.get, fun _ => [], []⟩ }]

theorem secrets_hidden_porch :
    (serveAll (Database.serve Httpd.porchCajun) (porchDatabase (ascii "x1")) porchCalls).2 =
      (serveAll (Database.serve Httpd.porchCajun) (porchDatabase (ascii "y22")) porchCalls).2 ∧
    (∀ n, (serveAll (Database.serve Httpd.porchCajun) (porchDatabase (ascii "x1"))
      (porchCalls.take n)).1.Agree (serveAll (Database.serve Httpd.porchCajun)
        (porchDatabase (ascii "y22")) (porchCalls.take n)).1) ∧
    ∀ id password, NulFree password →
      (porchDatabase (ascii "x1")).users.HasPassword id password →
      ∀ n, (serveAll (Database.serve Httpd.porchCajun) (porchDatabase (ascii "x1"))
        (porchCalls.take n)).1.users.HasPassword id password :=
  secrets_hidden Httpd.porchCajun (porchDatabase (ascii "x1")) (porchDatabase (ascii "y22"))
    porchCalls (porchDatabase_agree _ _)

end Domoio
