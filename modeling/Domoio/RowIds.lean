import Domoio.Ids

/-
  File:      Domoio/RowIds.lean
  Subject:   The rows and live devices that the actions for devices and users reach.

  `KeepsId` is what the actions need of a class: loading gives an object the id of its row, and only
  an insert changes it. From it comes the log of each branch of the action (`index_ids`, `show_ids`,
  `create_ids`, `update_ids`), and from these when the action resolves its id (`resource_exact`).
-/

namespace Domoio

open Lib

namespace Httpd

/-! ## 1. The ids of objects -/

/-- Loading gives an object the id of its row; nothing else but an insert changes it. -/
structure KeepsId {T : Type} (M : ModelClass Registry T) (blank : T) : Prop where
  zero : M.getId blank = 0
  loaded : ∀ {c id row t}, M.loadFromRes c id row blank = .ok t → M.getId t = id
  body : ∀ {c body t t'}, M.fromJson c body t = .ok t' → M.getId t' = M.getId t
  saved : ∀ c env t, M.getId (M.beforeSave c env t) = M.getId t
  inserted : ∀ t id, M.getId (M.setId t id) = id
  stored : ∀ t, (M.assignments t).isSome

theorem device_keepsId : KeepsId Device.model {} where
  zero := rfl
  loaded {c id row t} h := by
    have hload : Device.model.loadFields id row Device.model.fields {} = some
        (deviceOfRow id row {}) := rfl
    rw [ModelClass.loadFromRes, hload] at h
    obtain ⟨specs, -, ht⟩ := bind_eq_ok h
    cases ht
    rfl
  body {c body t t'} h := by
    obtain ⟨doc, -, ht⟩ := bind_eq_ok h
    rw [deviceFromJson_eq] at ht
    cases hspecs : Specifications.model.fromJsonObject
        (Object.get doc "specifications").toObject t.specifications with
    | error e =>
        rw [hspecs] at ht
        cases ht
    | ok specs =>
        rw [hspecs] at ht
        cases ht
        rfl
  saved _ _ _ := rfl
  inserted _ _ := rfl
  stored _ := rfl

theorem user_keepsId : KeepsId User.model {} where
  zero := rfl
  loaded {c id row t} h := by
    cases h
    rfl
  body h := (user_fromJson h).1
  saved _ _ _ := rfl
  inserted _ _ := rfl
  stored _ := rfl

section Object

variable {T : Type} {M : ModelClass Registry T} {blank : T} {statements : Statements} {c : Cajun}
  {env : Registry} {table : Table} {i : Int32} {t : T}

/-- An object that is loaded has the id; otherwise it stays blank. -/
theorem KeepsId.load (h : KeepsId M blank) {r : T × Bool}
    (hload : M.loadWhen statements c table i blank = .ok r) :
    (Loaded statements table i → M.getId r.1 = i ∧ r.2 = true) ∧
      (¬ Loaded statements table i → r.1 = blank ∧ r.2 = false) := by
  rw [ModelClass.loadWhen] at hload
  by_cases hselect : statements.select = true
  · rw [if_pos hselect, ModelClass.loadFromDb] at hload
    cases hrow : table.rows[i]? with
    | none =>
        rw [hrow] at hload
        cases hload
        refine ⟨fun hloaded => ?_, fun _ => ⟨rfl, rfl⟩⟩
        have hmem := Std.ExtTreeMap.mem_iff_isSome_getElem?.mp hloaded.2
        rw [hrow] at hmem
        cases hmem
    | some row =>
        rw [hrow] at hload
        obtain ⟨t, ht, hr⟩ := bind_eq_ok hload
        cases hr
        refine ⟨fun _ => ⟨h.loaded ht, rfl⟩, fun hnot => absurd ⟨hselect, ?_⟩ hnot⟩
        exact Std.ExtTreeMap.mem_iff_isSome_getElem?.mpr (by rw [hrow]; rfl)
  · rw [if_neg hselect] at hload
    cases hload
    exact ⟨fun hloaded => absurd hloaded.1 hselect, fun _ => ⟨rfl, rfl⟩⟩

/-- Only a row that is there can fail to be read. -/
theorem loaded_of_error {e : JsonException}
    (hload : M.loadWhen statements c table i blank = .error e) : Loaded statements table i := by
  rw [ModelClass.loadWhen] at hload
  split at hload
  · next hselect =>
    cases hrow : table.rows[i]? with
    | none =>
        rw [ModelClass.loadFromDb, hrow] at hload
        cases hload
    | some row => exact ⟨hselect, Std.ExtTreeMap.mem_iff_isSome_getElem?.mpr (by rw [hrow]; rfl)⟩
  · cases hload

/-- The id of an object after it is saved. -/
theorem KeepsId.save (h : KeepsId M blank) : M.getId (M.saveWhen statements c env table t).2.1 =
    if M.getId t = 0 ∧ statements.write = true ∧ table.nextId ∉ table.rows then table.nextId
    else M.getId t := by
  rw [ModelClass.saveWhen]
  obtain ⟨columns, hcolumns⟩ := Option.isSome_iff_exists.mp (h.stored (M.beforeSave c env t))
  by_cases hzero : M.getId t = 0
  · by_cases hwrite : statements.write = true ∧ table.nextId ∉ table.rows
    · rw [if_pos ⟨hwrite.1, Or.inr hwrite.2⟩, if_pos ⟨hzero, hwrite⟩, ModelClass.save,
        if_neg (by rw [h.saved]; exact not_not.mpr hzero), ModelClass.create, hcolumns]
      exact h.inserted _ _
    · rw [if_neg (by rw [h.saved, hzero]; simpa using hwrite), if_neg fun hall => hwrite hall.2]
      exact h.saved _ _ _
  · have hid : M.getId (M.beforeSave c env t) ≠ 0 := by
      rw [h.saved]
      exact hzero
    have hsame : M.getId (if statements.write = true ∧ (M.getId (M.beforeSave c env t) ≠ 0 ∨
        table.nextId ∉ table.rows) then M.save c env table t
          else (table, M.beforeSave c env t, false)).2.1 = M.getId t := by
      split
      · rw [ModelClass.save, if_pos hid, ModelClass.update, hcolumns]
        exact h.saved _ _ _
      · exact h.saved _ _ _
    rw [hsame, if_neg fun hall => hzero hall.1]

end Object

/-! ## 2. The action for a model -/

namespace Traced

variable {name : TableName} {s : Server} {i j : Int32} {statements : Statements} {table : Table}

theorem load_apply {T : Type} (M : ModelClass Registry T) (c : Cajun) (blank : T) :
    load M name statements c i blank s = ((M.loadWhen statements c (s.table name) i blank, s),
      found name statements (s.table name) i) := rfl

theorem loadAll_apply {T : Type} (M : ModelClass Registry T) (c : Cajun) (blank : T) :
    loadAll M name statements c blank s = ((allWhen M statements c blank (s.table name), s),
      listed name statements (s.table name)) := rfl

theorem mem_found {a : Access} : a ∈ found name statements table i ↔
    Loaded statements table i ∧ a = ⟨.reads, .row name i⟩ := by
  have hfound : found name statements table i =
      if Loaded statements table i then [⟨.reads, .row name i⟩] else [] := rfl
  rw [hfound]
  split
  · next hloaded => simp [hloaded]
  · next hloaded => simp [hloaded]

theorem mem_listed {a : Access} : a ∈ listed name statements table ↔
    statements.select = true ∧ ∃ j ∈ table.rows, a = ⟨.reads, .row name j⟩ := by
  rw [listed]
  split
  · next hselect =>
    rw [List.mem_map, and_iff_right hselect]
    constructor
    · rintro ⟨p, hp, rfl⟩
      have hrow := Std.ExtTreeMap.mem_toList_iff_getElem?_eq_some.mp hp
      exact ⟨p.1, Std.ExtTreeMap.mem_iff_isSome_getElem?.mpr (by rw [hrow]; rfl), rfl⟩
    · rintro ⟨j, hj, rfl⟩
      obtain ⟨row, hrow⟩ := Option.isSome_iff_exists.mp (Std.ExtTreeMap.mem_iff_isSome_getElem?.mp hj)
      exact ⟨(j, row), Std.ExtTreeMap.mem_toList_iff_getElem?_eq_some.mpr hrow, rfl⟩
  · next hselect => simp [hselect]

@[simp] theorem bind_showing {α : Type} (ids : List Int32) (f : Unit → Traced α) :
    (showing name ids >>= f) s = ((f () s).1, (showing name ids s).2 ++ (f () s).2) := rfl

theorem mem_showing {ids : List Int32} {a : Access} (h : a ∈ (showing name ids s).2) :
    a.use = .reads ∧ a.entity.id ∈ ids := by
  cases name with
  | users => cases h
  | devices =>
      obtain ⟨id, hid, rfl⟩ := List.mem_map.mp h
      exact ⟨rfl, (List.mem_filter.mp hid).1⟩

theorem showing_iff : (∀ a ∈ (showing name [j] s).2, a.entity.id = i) ↔
    (j ≠ i → Unseen s name j) := by
  cases name with
  | users => exact iff_of_true (fun a ha => by cases ha) fun _ => trivial
  | devices =>
      have hlog : (showing .devices [j] s).2 =
          ([j].filter fun id => (s.live id).isSome).map fun id => ⟨.reads, .live id⟩ := rfl
      have hunseen : Unseen s .devices j ↔ s.live j = none := Iff.rfl
      rw [hlog, hunseen]
      cases hlive : s.live j with
      | none => simp [hlive]
      | some device => simp [hlive, Entity.id]

theorem showing_setTable (ids : List Int32) :
    (showing name ids (s.setTable table name)).2 = (showing name ids s).2 := by
  cases name <;> rfl

/-- The rows that a save of an object without id has to do with. -/
theorem saved_new (h : Inserts statements table) :
    saved name statements table 0 = [⟨.adds, .row name table.nextId⟩] := by
  rw [saved, if_neg (by rw [h.1]; decide), if_neg (by decide), if_neg h.2]

theorem saved_none (h : ¬ Inserts statements table) : saved name statements table 0 = [] := by
  rw [saved]
  split
  · rfl
  · next hwrite =>
    rw [if_neg (by decide)]
    refine if_pos ?_
    by_contra hfree
    exact h ⟨by simpa using hwrite, hfree⟩

theorem mem_saved (hi : i ≠ 0) {a : Access} (h : a ∈ saved name statements table i) :
    a = ⟨.changes, .row name i⟩ := by
  rw [saved, if_pos hi] at h
  split at h
  · cases h
  · split at h
    · exact List.mem_singleton.mp h
    · cases h

end Traced

section Resource

variable {T : Type} {M : ModelClass Registry T} {blank : T} {name : TableName}
  {statements : Statements} {c : Cajun} {s : Server} {request : Request}

/-- What an action does once it has the object to save. -/
def saveAndShow (M : ModelClass Registry T) (name : TableName) (statements : Statements) (c : Cajun)
    (live : Registry) (t : T) : Traced (Option Bytes) := do
  let t ← Traced.save M name statements c t
  Traced.showing name [M.getId t]
  return some (M.toJson c live t)

theorem saveAndShow_log (h : KeepsId M blank) (live : Registry) (t : T) :
    (saveAndShow M name statements c live t s).2 =
      Traced.saved name statements (s.table name) (M.getId t) ++
        (Traced.showing name
          [if M.getId t = 0 ∧ Inserts statements (s.table name) then (s.table name).nextId
            else M.getId t] s).2 := by
  have hlog : (saveAndShow M name statements c live t s).2 =
      Traced.saved name statements (s.table name) (M.getId (M.beforeSave c s.live t)) ++
        ((Traced.showing name [M.getId (M.saveWhen statements c s.live (s.table name) t).2.1]
          (s.setTable (M.saveWhen statements c s.live (s.table name) t).1 name)).2 ++ []) := rfl
  rw [hlog, List.append_nil, Traced.showing_setTable, h.saved, h.save]
  rfl

/-- An object with an id is about the row and the live device of the id. -/
theorem saveAndShow_old (h : KeepsId M blank) (live : Registry) {t : T} (hid : M.getId t ≠ 0) :
    ∀ a ∈ (saveAndShow M name statements c live t s).2, a.entity.id = M.getId t := by
  intro a ha
  rw [saveAndShow_log h, if_neg fun hall => hid hall.1] at ha
  rcases List.mem_append.mp ha with ha | ha
  · rw [Traced.mem_saved hid ha]
    rfl
  · exact List.mem_singleton.mp (Traced.mem_showing ha).2

/-- An object without one is about the row it is inserted in, or about the device 0. -/
theorem saveAndShow_new (h : KeepsId M blank) (live : Registry) {t : T} (hid : M.getId t = 0)
    (i : Int32) : (∀ a ∈ (saveAndShow M name statements c live t s).2, a.entity.id = i) ↔
      (Inserts statements (s.table name) → (s.table name).nextId = i) ∧
        (¬ Inserts statements (s.table name) → 0 ≠ i → Unseen s name 0) := by
  rw [saveAndShow_log h, hid, List.forall_mem_append, Traced.showing_iff]
  by_cases hinserts : Inserts statements (s.table name)
  · rw [Traced.saved_new hinserts, if_pos ⟨rfl, hinserts⟩]
    simp only [List.forall_mem_singleton, hinserts, true_implies, not_true, false_implies, and_true]
    exact and_iff_left_of_imp fun heq hne => absurd heq hne
  · rw [Traced.saved_none hinserts, if_neg fun hall => hinserts hall.2]
    simp [hinserts]

/-- The action where it returns false at once. -/
theorem resource_refused (h : Refused (request.paramInt "id") request.method) :
    traced.resource M blank name statements c request s = ((.ok none, s), []) := by
  unfold traced.resource
  rw [Traced.bind_read]
  cases hm : request.method with
  | get =>
      rw [hm] at h
      exact h.elim
  | post =>
      rw [hm] at h
      have hid : request.paramInt "id" ≠ 0 := h
      simp [hid]
  | put =>
      rw [hm] at h
      have hid : request.paramInt "id" = 0 := h
      simp [hid]
  | options | delete | other => simp

/-- The objects of an index have the ids of the rows. -/
theorem KeepsId.all (h : KeepsId M blank) {table : Table} {collection : List T}
    (hall : allWhen M statements c blank table = .ok collection) :
    ∀ t ∈ collection, statements.select = true ∧ M.getId t ∈ table.rows := by
  rw [allWhen] at hall
  split at hall
  · next hselect =>
    have hloaded : ∀ (rows : List (Int32 × Row)) (collection : List T),
        rows.mapM (fun p => M.loadFromRes c p.1 p.2 blank) = .ok collection →
          ∀ t ∈ collection, ∃ p ∈ rows, M.getId t = p.1 := by
      intro rows
      induction rows with
      | nil =>
          intro collection hrows t ht
          cases hrows
          cases ht
      | cons p rows ih =>
          intro collection hrows t ht
          rw [List.mapM_cons] at hrows
          obtain ⟨t', ht', hrest⟩ := bind_eq_ok hrows
          obtain ⟨rest, hothers, hcollection⟩ := bind_eq_ok hrest
          cases hcollection
          rcases List.mem_cons.mp ht with rfl | ht
          · exact ⟨p, List.mem_cons_self, h.loaded ht'⟩
          · obtain ⟨q, hq, hid⟩ := ih rest hothers t ht
            exact ⟨q, List.mem_cons_of_mem p hq, hid⟩
    intro t ht
    obtain ⟨p, hp, hid⟩ := hloaded _ _ hall t ht
    have hrow : table.rows[p.1]? = some p.2 :=
      Std.ExtTreeMap.mem_toList_iff_getElem?_eq_some.mp hp
    refine ⟨hselect, ?_⟩
    rw [hid]
    exact Std.ExtTreeMap.mem_iff_isSome_getElem?.mpr (by rw [hrow]; rfl)
  · cases hall
    intro t ht
    cases ht

/-- An index reads the rows, and shows what is live under their ids. -/
theorem resource_index (h : KeepsId M blank) (hm : request.method = .get)
    (hi : request.paramInt "id" = 0) : ∃ result shown,
    traced.resource M blank name statements c request s =
        ((result, s), Traced.listed name statements (s.table name) ++ shown) ∧
      result ≠ .ok none ∧
      ∀ a ∈ shown, a.use = .reads ∧ statements.select = true ∧
        a.entity.id ∈ (s.table name).rows := by
  unfold traced.resource
  rw [Traced.bind_read, if_pos ⟨hm, hi⟩]
  cases hall : allWhen M statements c blank (s.table name) with
  | error e =>
      refine ⟨.error e, [], ?_, by simp, by simp⟩
      rw [List.append_nil]
      exact Traced.bind_error (by rw [Traced.loadAll_apply, hall]) _
  | ok collection =>
      refine ⟨.ok (some (c.writeArray (collection.map fun t => .object (M.toJsonObject s.live t)))),
        (Traced.showing name (collection.map M.getId) s).2, ?_, by simp, fun a ha => ?_⟩
      · refine (Traced.bind_ok (by rw [Traced.loadAll_apply, hall]) _).trans ?_
        rw [Traced.bind_showing, Traced.pure_apply, List.append_nil]
      · obtain ⟨huse, hid⟩ := Traced.mem_showing ha
        obtain ⟨t, ht, hid⟩ := List.mem_map.mp hid
        obtain ⟨hselect, hrow⟩ := h.all hall t ht
        exact ⟨huse, hselect, hid ▸ hrow⟩

/-- A GET of one row. -/
theorem resource_show (h : KeepsId M blank) (hm : request.method = .get) {i : Int32}
    (hi : request.paramInt "id" = i) (hne : i ≠ 0) : ∃ result shown,
    traced.resource M blank name statements c request s =
        ((result, s), Traced.found name statements (s.table name) i ++ shown) ∧
      result ≠ .ok none ∧ (Loaded statements (s.table name) i → ∀ a ∈ shown, a.entity.id = i) ∧
        (¬ Loaded statements (s.table name) i → shown = (Traced.showing name [0] s).2) := by
  unfold traced.resource
  rw [Traced.bind_read, if_neg (by rw [hi]; exact fun hall => hne hall.2),
    if_pos ⟨hm, by rw [hi]; exact hne⟩, hi]
  cases hload : M.loadWhen statements c (s.table name) i blank with
  | error e =>
      refine ⟨.error e, [], ?_, by simp, by simp, fun hnot => absurd (loaded_of_error hload) hnot⟩
      rw [List.append_nil]
      exact Traced.bind_error (by rw [Traced.load_apply, hload]) _
  | ok r =>
      obtain ⟨hfound, hmissing⟩ := h.load hload
      refine ⟨.ok (some (M.toJson c s.live r.1)), (Traced.showing name [M.getId r.1] s).2, ?_,
        by simp, fun hloaded a ha => ?_, fun hnot => ?_⟩
      · refine (Traced.bind_ok (by rw [Traced.load_apply, hload]) _).trans ?_
        rw [Traced.bind_showing, Traced.pure_apply, List.append_nil]
      · rw [(hfound hloaded).1] at ha
        exact List.mem_singleton.mp (Traced.mem_showing ha).2
      · rw [(hmissing hnot).1, h.zero]

theorem saveAndShow_answered (live : Registry) (t : T) :
    (saveAndShow M name statements c live t s).1.1 ≠ .ok none := by
  intro hnone
  cases hnone

/-- A POST. -/
theorem resource_create (hm : request.method = .post) (hi : request.paramInt "id" = 0) :
    (∃ e, M.fromJson c request.postDataRaw blank = .error e ∧
        traced.resource M blank name statements c request s = ((.error e, s), [])) ∨
      ∃ t, M.fromJson c request.postDataRaw blank = .ok t ∧
        traced.resource M blank name statements c request s =
          saveAndShow M name statements c s.live t s := by
  unfold traced.resource
  rw [Traced.bind_read, if_neg (by simp [hm]), if_neg (by simp [hm]), if_pos ⟨hm, hi⟩]
  cases M.fromJson c request.postDataRaw blank with
  | error e => exact Or.inl ⟨e, rfl, rfl⟩
  | ok t => exact Or.inr ⟨t, rfl, rfl⟩

/-- A PUT of one row. -/
theorem resource_update (hm : request.method = .put) {i : Int32}
    (hi : request.paramInt "id" = i) (hne : i ≠ 0) :
    ∃ run : (Except JsonException (Option Bytes) × Server) × List Access,
      traced.resource M blank name statements c request s =
          (run.1, Traced.found name statements (s.table name) i ++ run.2) ∧
      ((∃ e, M.loadWhen statements c (s.table name) i blank = .error e ∧ run = ((.error e, s), [])) ∨
        ∃ r, M.loadWhen statements c (s.table name) i blank = .ok r ∧
          ((∃ e, M.fromJson c request.postDataRaw r.1 = .error e ∧ run = ((.error e, s), [])) ∨
            ∃ t, M.fromJson c request.postDataRaw r.1 = .ok t ∧
              run = saveAndShow M name statements c s.live t s)) := by
  unfold traced.resource
  rw [Traced.bind_read, if_neg (by simp [hm]), if_neg (by simp [hm]), if_neg (by simp [hm]),
    if_pos ⟨hm, by rw [hi]; exact hne⟩, hi]
  cases hload : M.loadWhen statements c (s.table name) i blank with
  | error e =>
      refine ⟨((.error e, s), []), ?_, Or.inl ⟨e, rfl, rfl⟩⟩
      rw [List.append_nil]
      exact Traced.bind_error (by rw [Traced.load_apply, hload]) _
  | ok r =>
      rw [Traced.bind_ok (by rw [Traced.load_apply, hload])]
      refine ⟨_, rfl, Or.inr ⟨r, rfl, ?_⟩⟩
      cases M.fromJson c request.postDataRaw r.1 with
      | error e => exact Or.inl ⟨e, rfl, rfl⟩
      | ok t => exact Or.inr ⟨t, rfl, rfl⟩

/-- Of an index. -/
theorem index_ids (h : KeepsId M blank) (hm : request.method = .get)
    (hi : request.paramInt "id" = 0) :
    (traced.resource M blank name statements c request s).1.1 ≠ .ok none ∧
      ((∀ a ∈ (traced.resource M blank name statements c request s).2, a.entity.id = 0) ↔
        (statements.select = true → ∀ j ∈ (s.table name).rows, j = 0)) := by
  obtain ⟨result, shown, hrun, hanswered, hshown⟩ := resource_index h hm hi
  rw [hrun]
  refine ⟨hanswered, ?_⟩
  constructor
  · intro hids hselect j hj
    have hread : Access.mk .reads (.row name j) ∈ Traced.listed name statements (s.table name) :=
      Traced.mem_listed.mpr ⟨hselect, j, hj, rfl⟩
    exact hids _ (List.mem_append_left shown hread)
  · intro hzero a ha
    rcases List.mem_append.mp ha with ha | ha
    · obtain ⟨hselect, j, hj, rfl⟩ := Traced.mem_listed.mp ha
      exact hzero hselect j hj
    · obtain ⟨-, hselect, hj⟩ := hshown a ha
      exact hzero hselect _ hj

/-- Of a GET of one row. -/
theorem show_ids (h : KeepsId M blank) (hm : request.method = .get) {i : Int32}
    (hi : request.paramInt "id" = i) (hne : i ≠ 0) :
    (traced.resource M blank name statements c request s).1.1 ≠ .ok none ∧
      ((∀ a ∈ (traced.resource M blank name statements c request s).2, a.entity.id = i) ↔
        (¬ Loaded statements (s.table name) i → Unseen s name 0)) := by
  obtain ⟨result, shown, hrun, hanswered, hfound, hmissing⟩ := resource_show h hm hi hne
  rw [hrun]
  refine ⟨hanswered, ?_⟩
  rw [List.forall_mem_append, and_iff_right fun a ha => by rw [(Traced.mem_found.mp ha).2]; rfl]
  by_cases hloaded : Loaded statements (s.table name) i
  · exact iff_of_true (hfound hloaded) fun hnot => absurd hloaded hnot
  · rw [hmissing hloaded, Traced.showing_iff]
    exact ⟨fun hunseen _ => hunseen hne.symm, fun hunseen _ => hunseen hloaded⟩

/-- Of a POST. -/
theorem create_ids (h : KeepsId M blank) (hm : request.method = .post)
    (hi : request.paramInt "id" = 0) :
    (traced.resource M blank name statements c request s).1.1 ≠ .ok none ∧
      ((∀ a ∈ (traced.resource M blank name statements c request s).2, a.entity.id = 0) ↔
        (Returns (M.fromJson c request.postDataRaw blank) → Inserts statements (s.table name) →
          (s.table name).nextId = 0)) := by
  rcases resource_create hm hi with ⟨e, he, hrun⟩ | ⟨t, ht, hrun⟩
  · rw [hrun, he]
    exact ⟨by simp, by simp⟩
  · rw [hrun, ht]
    refine ⟨saveAndShow_answered _ _, ?_⟩
    have hid : M.getId t = 0 := (h.body ht).trans h.zero
    rw [saveAndShow_new h _ hid]
    simp

/-- Of a PUT. -/
theorem update_ids (h : KeepsId M blank) (hm : request.method = .put) {i : Int32}
    (hi : request.paramInt "id" = i) (hne : i ≠ 0) :
    (traced.resource M blank name statements c request s).1.1 ≠ .ok none ∧
      ((∀ a ∈ (traced.resource M blank name statements c request s).2, a.entity.id = i) ↔
        (¬ Loaded statements (s.table name) i → Returns (M.fromJson c request.postDataRaw blank) →
          (Inserts statements (s.table name) → (s.table name).nextId = i) ∧
            (¬ Inserts statements (s.table name) → Unseen s name 0))) := by
  obtain ⟨run, hrun, hcourse⟩ := resource_update hm hi hne
  rw [hrun]
  rw [List.forall_mem_append, and_iff_right fun a ha => by rw [(Traced.mem_found.mp ha).2]; rfl]
  rcases hcourse with ⟨e, he, rfl⟩ | ⟨r, hload, hcourse⟩
  · exact ⟨by simp, iff_of_true (by simp) fun hnot => absurd (loaded_of_error he) hnot⟩
  obtain ⟨hfound, hmissing⟩ := h.load hload
  by_cases hloaded : Loaded statements (s.table name) i
  · have hid : M.getId r.1 = i := (hfound hloaded).1
    rcases hcourse with ⟨e, he, rfl⟩ | ⟨t, ht, rfl⟩
    · exact ⟨by simp, iff_of_true (by simp) fun hnot => absurd hloaded hnot⟩
    · have ht' : M.getId t = i := (h.body ht).trans hid
      refine ⟨saveAndShow_answered _ _, iff_of_true ?_ fun hnot => absurd hloaded hnot⟩
      intro a ha
      rw [← ht'] at hne ⊢
      exact saveAndShow_old h s.live hne a ha
  · rw [(hmissing hloaded).1] at hcourse
    rcases hcourse with ⟨e, he, rfl⟩ | ⟨t, ht, rfl⟩
    · rw [he]
      exact ⟨by simp, by simp⟩
    · have hid : M.getId t = 0 := (h.body ht).trans h.zero
      refine ⟨saveAndShow_answered _ _, ?_⟩
      rw [saveAndShow_new h _ hid, ht]
      simp [hloaded, hne.symm]

/-- Which rows and devices the action is about, where it has a branch. -/
theorem resource_ids (h : KeepsId M blank) {i : Int32} (hi : request.paramInt "id" = i)
    (hbranch : ¬ Refused i request.method) :
    (traced.resource M blank name statements c request s).1.1 ≠ .ok none ∧
      ((∀ a ∈ (traced.resource M blank name statements c request s).2, a.entity.id = i) ↔
        ResolvesRow M blank name statements c s request.postDataRaw i request.method) := by
  cases hm : request.method with
  | options | delete | other =>
      rw [hm] at hbranch
      exact absurd trivial hbranch
  | get =>
      by_cases hzero : i = 0
      · subst hzero
        refine ⟨(index_ids h hm hi).1, (index_ids h hm hi).2.trans ?_⟩
        exact ⟨fun hindex => ⟨fun _ _ => hindex, fun _ hne => absurd rfl hne, nofun, nofun⟩,
          fun hrow => hrow.index rfl rfl⟩
      · refine ⟨(show_ids h hm hi hzero).1, (show_ids h hm hi hzero).2.trans ?_⟩
        exact ⟨fun hshown => ⟨fun _ hi => absurd hi hzero, fun _ _ => hshown, nofun, nofun⟩,
          fun hrow => hrow.shown rfl hzero⟩
  | post =>
      rw [hm] at hbranch
      have hzero : i = 0 := not_not.mp hbranch
      subst hzero
      refine ⟨(create_ids h hm hi).1, (create_ids h hm hi).2.trans ?_⟩
      exact ⟨fun hcreated => ⟨nofun, nofun, fun _ => hcreated, nofun⟩, fun hrow => hrow.created rfl⟩
  | put =>
      rw [hm] at hbranch
      have hne : i ≠ 0 := hbranch
      refine ⟨(update_ids h hm hi hne).1, (update_ids h hm hi hne).2.trans ?_⟩
      exact ⟨fun hmissing => ⟨nofun, nofun, nofun, fun _ => hmissing⟩, fun hrow => hrow.missing rfl⟩

/-- Where the id is 0 nothing that is there is changed. -/
theorem resource_collection (h : KeepsId M blank) (hi : request.paramInt "id" = 0) :
    ∀ a ∈ (traced.resource M blank name statements c request s).2,
      a.use = .adds ∨ a.use = .reads := by
  by_cases hbranch : Refused 0 request.method
  · rw [resource_refused (hi.symm ▸ hbranch)]
    simp
  cases hm : request.method with
  | options | delete | other =>
      rw [hm] at hbranch
      exact absurd trivial hbranch
  | put =>
      rw [hm] at hbranch
      exact absurd rfl hbranch
  | get =>
      obtain ⟨result, shown, hrun, -, hshown⟩ := resource_index h hm hi
      rw [hrun]
      intro a ha
      rcases List.mem_append.mp ha with ha | ha
      · obtain ⟨-, j, -, rfl⟩ := Traced.mem_listed.mp ha
        exact Or.inr rfl
      · exact Or.inr (hshown a ha).1
  | post =>
      rcases resource_create hm hi with ⟨e, -, hrun⟩ | ⟨t, ht, hrun⟩
      · rw [hrun]
        simp
      rw [hrun, saveAndShow_log h, (h.body ht).trans h.zero]
      intro a ha
      rcases List.mem_append.mp ha with ha | ha
      · by_cases hinserts : Inserts statements (s.table name)
        · rw [Traced.saved_new hinserts] at ha
          obtain rfl := List.mem_singleton.mp ha
          exact Or.inl rfl
        · rw [Traced.saved_none hinserts] at ha
          cases ha
      · exact Or.inr (Traced.mem_showing ha).1

/-- The row of the id is among what an answered request has to do with. -/
theorem resource_complete (h : KeepsId M blank) {i : Int32} (hi : request.paramInt "id" = i)
    (hrow : ResolvesRow M blank name statements c s request.postDataRaw i request.method)
    (hcarried : Carried statements s) (hmem : i ∈ (s.table name).rows) {data : Bytes}
    (hanswered : (traced.resource M blank name statements c request s).1.1 = .ok (some data)) :
    ∃ use, ⟨use, .row name i⟩ ∈ (traced.resource M blank name statements c request s).2 := by
  have hloaded : Loaded statements (s.table name) i := ⟨hcarried.select, hmem⟩
  have hfound : Access.mk .reads (.row name i) ∈ Traced.found name statements (s.table name) i :=
    Traced.mem_found.mpr ⟨hloaded, rfl⟩
  by_cases hbranch : Refused i request.method
  · rw [resource_refused (hi.symm ▸ hbranch)] at hanswered
    cases hanswered
  cases hm : request.method with
  | options | delete | other =>
      rw [hm] at hbranch
      exact absurd trivial hbranch
  | get =>
      by_cases hzero : i = 0
      · obtain ⟨result, shown, hrun, -⟩ := resource_index h hm (hi.trans hzero)
        rw [hrun]
        exact ⟨.reads, List.mem_append_left _
          (Traced.mem_listed.mpr ⟨hcarried.select, i, hmem, rfl⟩)⟩
      · obtain ⟨result, shown, hrun, -⟩ := resource_show h hm hi hzero
        rw [hrun]
        exact ⟨.reads, List.mem_append_left _ hfound⟩
  | put =>
      rw [hm] at hbranch
      obtain ⟨run, hrun, -⟩ := resource_update hm hi hbranch
      rw [hrun]
      exact ⟨.reads, List.mem_append_left _ hfound⟩
  | post =>
      rw [hm] at hbranch
      have hzero : i = 0 := not_not.mp hbranch
      rcases resource_create hm (hi.trans hzero) with ⟨e, -, hrun⟩ | ⟨t, ht, -⟩
      · rw [hrun] at hanswered
        cases hanswered
      · -- the new row would have the id of one that is there
        have hfree := hcarried.free name
        have hnext := hrow.created hm ⟨t, ht⟩ ⟨hcarried.write, hfree⟩
        rw [hnext] at hfree
        exact absurd hmem hfree

end Resource

/-- A resource's own id is the one in its URL. -/
theorem digitsOf_plain {callback : Callback} (hplain : callback.hasDevice = false) (deviceId id : Bytes)
    (e : Entity) : callback.digitsOf deviceId id e = id := by
  cases callback with
  | devices | users => cases e <;> rfl
  | ports | setPort => cases hplain

/-- What a resource's request may touch: without an id what it adds or reads, else the row with the id. -/
theorem allowed_plain {callback : Callback} (hplain : callback.hasDevice = false) (deviceId : Bytes)
    (id : Digits) (a : Access) : Allowed callback deviceId id.val a ↔
      (id.val = [] → a.use = .adds ∨ a.use = .reads) ∧
        (id.val ≠ [] → InRange id.val ∧ a.entity.id = atoi id.val) := by
  rw [Allowed, digitsOf_plain hplain, hplain]
  by_cases hnone : id.val = []
  · simp [hnone]
  · simp [hnone, names_iff, eq_comm]

/-- The requests for the rows of a table that resolve their id. -/
theorem resource_exact {T : Type} {M : ModelClass Registry T} {blank : T} {name : TableName}
    {statements : Statements} {c : Cajun} {s : Server} {request : Request} {callback : Callback}
    {deviceId : Bytes} {id : Digits} (h : KeepsId M blank) (hplain : callback.hasDevice = false)
    (hid : request.params "id" = id.val)
    (hpresent : ∀ e, Present c s deviceId callback e → ∃ i ∈ (s.table name).rows, e = .row name i) :
    IdsExact statements c s callback deviceId id.val
        (answer (traced.resource M blank name statements c request) s) ↔
      ResolvesResource M blank name statements c s request.method id.val request.postDataRaw := by
  have hi : request.paramInt "id" = atoi id.val := congrArg atoi hid
  have hdigits := digitsOf_plain hplain deviceId id.val
  have hallowed := allowed_plain hplain deviceId id
  rw [ResolvesResource]
  have hplain' : ¬ (callback.hasDevice = true ∧ OutOfRange deviceId) := by
    rw [hplain]
    exact fun hall => Bool.false_ne_true hall.1
  rcases Classical.em (id.val = []) with hnone | hsome
  · refine iff_of_true ⟨fun a ha => ?_, fun hout => ?_, fun _ _ e _ hnames => ?_⟩ (Or.inl hnone)
    · rw [answer_log] at ha
      have hzero : request.paramInt "id" = 0 := by rw [hi, hnone, atoi_nil]
      exact (hallowed a).mpr ⟨fun _ => resource_collection h hzero a ha, fun hsome => absurd hnone hsome⟩
    · exact absurd hnone (hout.resolve_right hplain').1
    · rw [hdigits] at hnames
      exact absurd hnone hnames.1
  by_cases hbranch : Refused (atoi id.val) request.method
  · have hrun : traced.resource M blank name statements c request s = ((.ok none, s), []) :=
      resource_refused (hi.symm ▸ hbranch)
    exact iff_of_true (idsExact_refused hrun (by simp)) (Or.inr (Or.inl hbranch))
  have hanswers : (traced.resource M blank name statements c request s).1.1 ≠ .ok none :=
    (resource_ids h hi hbranch).1
  have hids : (∀ a ∈ (traced.resource M blank name statements c request s).2,
      a.entity.id = atoi id.val) ↔
        ResolvesRow M blank name statements c s request.postDataRaw (atoi id.val) request.method :=
    (resource_ids h hi hbranch).2
  constructor
  · intro hexact
    refine Or.inr (Or.inr ⟨?_, hids.mp fun a ha => ?_⟩)
    · rcases inRange_or id.val with hnone | hin | hout
      · exact absurd hnone hsome
      · exact hin
      · exact absurd (answer_refused.mp (hexact.refused (Or.inl hout))) hanswers
    · exact (((hallowed a).mp (hexact.only a (by rw [answer_log]; exact ha))).2 hsome).2
  · intro hresolves
    obtain ⟨hin, hrow⟩ := (hresolves.resolve_left hsome).resolve_left hbranch
    refine ⟨fun a ha => ?_, fun hout => ?_, fun hanswered hcarried e he hnames => ?_⟩
    · rw [answer_log] at ha
      exact (hallowed a).mpr ⟨fun hnone => absurd hnone hsome, fun _ => ⟨hin, hids.mpr hrow a ha⟩⟩
    · exact absurd hin (hout.resolve_right hplain').not_inRange
    · obtain ⟨j, hmem, rfl⟩ := hpresent e he
      rw [hdigits] at hnames
      have hj : atoi id.val = j := ((names_iff id j).mp hnames).2
      obtain ⟨data, hdata⟩ := answer_answered.mp hanswered
      rw [answer_log]
      subst hj
      exact resource_complete h hi hrow hcarried hmem hdata

end Httpd

end Domoio
