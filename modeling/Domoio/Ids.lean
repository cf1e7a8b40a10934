import Domoio.Lib.Numeral
import Domoio.Accesses
import Domoio.Bodies
import Domoio.Urls

/-
  File:      Domoio/Ids.lean
  Subject:   The ids written in URLs against the rows, devices and ports that a request reaches.

  `param_int` is `atoi` of the digits: 0 where there are none, and wrapped where the number does not
  fit. `IdsExact` says of the log of a request that its entities are those the numerals name, as
  numbers; `ResolvesIds` says, before the request, when they are.
-/

namespace Domoio

open Lib

namespace Httpd

/-! ## 1. Numerals -/

/-- The digits are a numeral of the id, as a natural number. -/
def Names (digits : Bytes) (id : Int32) : Prop :=
  digits ≠ [] ∧ (digitsValue 0 digits : Int) = id.toInt

/-- A numeral in the range of `int`. -/
def InRange (digits : Bytes) : Prop := digits ≠ [] ∧ digitsValue 0 digits < 2 ^ 31

/-- A numeral outside of it. -/
def OutOfRange (digits : Bytes) : Prop := digits ≠ [] ∧ 2 ^ 31 ≤ digitsValue 0 digits

theorem inRange_or (digits : Bytes) : digits = [] ∨ InRange digits ∨ OutOfRange digits := by
  by_cases hnone : digits = []
  · exact Or.inl hnone
  rcases Nat.lt_or_ge (digitsValue 0 digits) (2 ^ 31) with hlt | hge
  · exact Or.inr (Or.inl ⟨hnone, hlt⟩)
  · exact Or.inr (Or.inr ⟨hnone, hge⟩)

theorem OutOfRange.not_inRange {digits : Bytes} (h : OutOfRange digits) : ¬ InRange digits :=
  fun hin => absurd hin.2 (Nat.not_lt.mpr h.2)

/-- The id that a numeral in range names is the one `atoi` reads; one outside names none. -/
theorem names_iff (digits : Digits) (id : Int32) :
    Names digits.val id ↔ InRange digits.val ∧ atoi digits.val = id := by
  have hread : digits.val ≠ [] →
      atoi digits.val = Int32.ofInt (clampLong (digitsValue 0 digits.val)) := fun hne =>
    (Numeral.plain digits.val _ hne digits.property rfl).atoi
  constructor
  · rintro ⟨hne, hvalue⟩
    have hlt := Int32.toInt_lt id
    refine ⟨⟨hne, by omega⟩, ?_⟩
    rw [hread hne, hvalue, clampLong_int32]
  · rintro ⟨⟨hne, hlt⟩, hatoi⟩
    have hclamp : clampLong (digitsValue 0 digits.val) = digitsValue 0 digits.val := by
      unfold clampLong
      omega
    refine ⟨hne, ?_⟩
    rw [← hatoi, hread hne, hclamp, Int32.toInt_ofInt_of_le (by omega) (by omega)]

theorem atoi_nil : atoi [] = 0 := rfl

/-! ## 2. What a URL allows -/

/-- The digits of the URL that are about an entity. -/
def Callback.digitsOf (deviceId id : Bytes) : Callback → Entity → Bytes
  | _, .port _ => id
  | .devices, _ | .users, _ => id
  | .ports, _ | .setPort, _ => deviceId

/-- With a numeral the entity is the one it names. Without one nothing that is there is changed, and
    nothing is read, but that the devices and users are there to be listed. -/
def Allowed (callback : Callback) (deviceId id : Bytes) (a : Access) : Prop :=
  if callback.digitsOf deviceId id a.entity = [] then
    a.use = .adds ∨ a.use = .reads ∧ callback.hasDevice = false
  else Names (callback.digitsOf deviceId id a.entity) a.entity.id

/-- The entities there are for a request. -/
def Present (c : Cajun) (s : Server) (deviceId : Bytes) : Callback → Entity → Prop
  | .devices, .row .devices i | .ports, .row .devices i => i ∈ s.devices.rows
  | .users, .row .users i => i ∈ s.users.rows
  | .ports, .port i => ∃ id device, Names deviceId id ∧
      Device.model.loadFromDb c s.devices id {} = .ok (device, true) ∧ (device.getPort i).isSome
  | .setPort, .live i => (s.live i).isSome
  | .setPort, .port i => ∃ id device, Names deviceId id ∧ s.live id = some device ∧
      (device.port i).isSome
  | _, _ => False

/-- The database carries out the statements of a request. -/
structure Carried (statements : Statements) (s : Server) : Prop where
  select : statements.select = true
  write : statements.write = true
  free : ∀ name, (s.table name).nextId ∉ (s.table name).rows

/-- The ids are resolved exactly. -/
structure IdsExact (statements : Statements) (c : Cajun) (s : Server) (callback : Callback)
    (deviceId id : Bytes) (run : (Except JsonException Bool × Server) × List Access) : Prop where
  only : ∀ a ∈ run.2, Allowed callback deviceId id a
  refused : OutOfRange id ∨ callback.hasDevice = true ∧ OutOfRange deviceId → run.1.1 = .ok false
  all : run.1.1 = .ok true → Carried statements s → ∀ e, Present c s deviceId callback e →
    Names (callback.digitsOf deviceId id e) e.id → ∃ use, ⟨use, e⟩ ∈ run.2

section Device

variable {deviceId id : Digits}

theorem digitsOf_device {e : Entity} (he : ∀ j, e ≠ .port j) {callback : Callback}
    (hcallback : callback.hasDevice = true) :
    callback.digitsOf deviceId.val id.val e = deviceId.val := by
  cases callback with
  | devices | users => cases hcallback
  | ports | setPort =>
      cases e with
      | port j => exact absurd rfl (he j)
      | row | live => rfl

/-- The device of a URL that has one. -/
theorem allowed_row {use : Use} {e : Entity} (he : ∀ j, e ≠ .port j) (hdevice : InRange deviceId.val)
    {callback : Callback} (hcallback : callback.hasDevice = true) :
    Allowed callback deviceId.val id.val ⟨use, e⟩ ↔ e.id = atoi deviceId.val := by
  have hallowed : Allowed callback deviceId.val id.val ⟨use, e⟩ ↔ Names deviceId.val e.id := by
    rw [Allowed, digitsOf_device he hcallback, if_neg hdevice.1]
  rw [hallowed, names_iff, and_iff_right hdevice, eq_comm]

theorem inRange_of_allowed {e : Entity} (he : ∀ j, e ≠ .port j) {callback : Callback}
    (hcallback : callback.hasDevice = true)
    (h : Allowed callback deviceId.val id.val ⟨.reads, e⟩) : InRange deviceId.val := by
  rw [Allowed, digitsOf_device he hcallback] at h
  split at h
  · rcases h with hadds | hplain
    · cases hadds
    · rw [hcallback] at hplain
      cases hplain.2
  · exact ((names_iff deviceId _).mp h).1

theorem allowed_port {use : Use} {j : Int32} {callback : Callback}
    (hcallback : callback.hasDevice = true) :
    Allowed callback deviceId.val id.val ⟨use, .port j⟩ ↔
      (id.val = [] → use = .adds) ∧ (id.val ≠ [] → InRange id.val ∧ atoi id.val = j) := by
  have hdigits : callback.digitsOf deviceId.val id.val (.port j) = id.val := by
    cases callback <;> rfl
  rw [Allowed, hdigits, hcallback]
  by_cases hnone : id.val = []
  · simp [hnone]
  · simp [hnone, names_iff, Entity.id]

/-- A port that is there is read or changed only under the numeral of its id. -/
theorem allowed_present {use : Use} (huse : use ≠ .adds) {callback : Callback}
    (hcallback : callback.hasDevice = true) :
    Allowed callback deviceId.val id.val ⟨use, .port (atoi id.val)⟩ ↔ InRange id.val := by
  rw [allowed_port hcallback]
  constructor
  · intro h
    have hsome : id.val ≠ [] := fun hnone => huse (h.1 hnone)
    exact (h.2 hsome).1
  · intro hin
    exact ⟨fun hnone => absurd hnone hin.1, fun _ => ⟨hin, rfl⟩⟩

end Device

/-- A request that is refused, and has met nothing but what the URL allows. -/
theorem idsExact_refused {statements : Statements} {c : Cajun} {s s' : Server} {callback : Callback}
    {deviceId id : Bytes} {x : Traced (Option Bytes)} {log : List Access}
    (hrun : x s = ((.ok none, s'), log)) (hlog : ∀ a ∈ log, Allowed callback deviceId id a) :
    IdsExact statements c s callback deviceId id (answer x s) := by
  refine ⟨?_, fun _ => answer_refused.mpr (by rw [hrun]), fun hanswered => ?_⟩
  · rw [answer_log, hrun]
    exact hlog
  · obtain ⟨data, hdata⟩ := answer_answered.mp hanswered
    rw [hrun] at hdata
    cases hdata

/-! ## 3. When it does -/

/-- The action for a model has no branch for these. -/
def Refused (i : Int32) : Method → Prop
  | .get => False
  | .post => i ≠ 0
  | .put => i = 0
  | .options | .delete | .other => True

/-- The database gives the row. -/
def Loaded (statements : Statements) (table : Table) (i : Int32) : Prop :=
  statements.select = true ∧ i ∈ table.rows

instance (statements : Statements) (table : Table) (i : Int32) :
    Decidable (Loaded statements table i) := inferInstanceAs (Decidable (_ ∧ _))

/-- A new row is inserted. -/
def Inserts (statements : Statements) (table : Table) : Prop :=
  statements.write = true ∧ table.nextId ∉ table.rows

instance (statements : Statements) (table : Table) : Decidable (Inserts statements table) :=
  inferInstanceAs (Decidable (_ ∧ _))

/-- The JSON of an object with this id shows no live device. -/
def Unseen (s : Server) (name : TableName) (j : Int32) : Prop :=
  match name with
  | .devices => s.live j = none
  | .users => True

/-- The action for a model: an index is of the row 0 alone, an object that is not loaded shows no
    other device, and what is inserted is a row of the id. -/
structure ResolvesRow {T : Type} (M : ModelClass Registry T) (blank : T) (name : TableName)
    (statements : Statements) (c : Cajun) (s : Server) (body : Bytes) (i : Int32) (method : Method) :
    Prop where
  index : method = .get → i = 0 → statements.select = true → ∀ j ∈ (s.table name).rows, j = 0
  shown : method = .get → i ≠ 0 → ¬ Loaded statements (s.table name) i → Unseen s name 0
  created : method = .post → Returns (M.fromJson c body blank) →
    Inserts statements (s.table name) → (s.table name).nextId = i
  missing : method = .put → ¬ Loaded statements (s.table name) i →
    Returns (M.fromJson c body blank) →
      (Inserts statements (s.table name) → (s.table name).nextId = i) ∧
        (¬ Inserts statements (s.table name) → Unseen s name 0)

/-- When the requests for the rows of a table resolve the id. -/
def ResolvesResource {T : Type} (M : ModelClass Registry T) (blank : T) (name : TableName)
    (statements : Statements) (c : Cajun) (s : Server) (method : Method) (id body : Bytes) : Prop :=
  id = [] ∨ Refused (atoi id) method ∨
    InRange id ∧ ResolvesRow M blank name statements c s body (atoi id) method

/-- The action for the ports, once the device is loaded: the port that is found is the one the URL
    writes, a body's port goes in under this id (or, where the URL writes none, under a free one), and
    the device is not one of id 0, which would be inserted again. -/
structure ResolvesPort (statements : Statements) (c : Cajun) (table : Table) (method : Method)
    (id body : Bytes) (device : Device) : Prop where
  shown : method = .get → (device.getPort (atoi id)).isSome → InRange id
  created : method = .post → ¬ OutOfRange id ∧ ∀ doc, c.read body = .ok doc →
    (id = [] → device.getPort (portOfJson doc).id = none) ∧
      (id ≠ [] → (portOfJson doc).id = atoi id) ∧ ¬ (device.id = 0 ∧ Inserts statements table)
  updated : method = .put → (device.getPort (atoi id)).isSome → InRange id ∧
    ∀ doc, c.read body = .ok doc →
      (portOfJson doc).id = atoi id ∧ ¬ (device.id = 0 ∧ Inserts statements table)

/-- When the requests for ports resolve the ids. -/
structure ResolvesPorts (statements : Statements) (c : Cajun) (s : Server) (method : Method)
    (deviceId id body : Bytes) : Prop where
  device : InRange deviceId
  unread : ∀ e, Device.model.loadWhen statements c s.devices (atoi deviceId) {} = .error e →
    ¬ OutOfRange id
  port : ∀ r, Device.model.loadWhen statements c s.devices (atoi deviceId) {} = .ok r →
    ResolvesPort statements c s.devices method id body r.1

/-- When a request to set a port resolves the ids. -/
def ResolvesSetPort (s : Server) (deviceId id : Bytes) : Prop :=
  ∀ device, s.live (atoi deviceId) = some device →
    InRange deviceId ∧ ((device.port (atoi id)).isSome → InRange id)

/-- The requests whose ids are resolved exactly. -/
def ResolvesIds (statements : Statements) (c : Cajun) (s : Server) (method : Method)
    (deviceId id body : Bytes) : Callback → Prop
  | .devices => ResolvesResource Device.model {} .devices statements c s method id body
  | .users => ResolvesResource User.model {} .users statements c s method id body
  | .ports => Loaded statements s.devices (atoi deviceId) →
      ResolvesPorts statements c s method deviceId id body
  | .setPort => ResolvesSetPort s deviceId id

end Httpd

end Domoio
