import Domoio.RowIds

/-
  File:      Domoio/PortIds.lean
  Subject:   The ports, rows and live devices that the actions for ports and `set_port` reach.

  The action for ports goes through the device's row: `portsLoaded_exact` is about what it does once
  the device is loaded, one lemma for each method, and `ports_exact` about the whole of it.
  `setPort_exact` is about the live devices.
-/

namespace Domoio

open Lib

namespace Httpd

/-! ## 1. The ports of a device -/

section Ports

variable {statements : Statements} {c : Cajun} {s : Server} {request : Request} {deviceId id : Digits}
  {device : Device}

/-- The access of a port that is put in. -/
def storingAccess (device : Device) (j : Int32) : Access :=
  ⟨if (device.getPort j).isSome then .changes else .adds, .port j⟩

theorem allowed_storing {j : Int32} (hout : ¬ OutOfRange id.val) :
    Allowed .ports deviceId.val id.val (storingAccess device j) ↔
      (id.val = [] → device.getPort j = none) ∧ (id.val ≠ [] → j = atoi id.val) := by
  have hin : id.val ≠ [] → InRange id.val := fun hsome =>
    ((inRange_or id.val).resolve_left hsome).resolve_right hout
  rw [storingAccess, allowed_port rfl]
  refine and_congr (imp_congr_right fun _ => ?_) (imp_congr_right fun hsome => ?_)
  · cases device.getPort j <;> simp
  · rw [and_iff_right (hin hsome), eq_comm]

/-- The device's row is updated, but for a device of id 0. -/
theorem allowed_saved (hdevice : InRange deviceId.val) (hid : device.id = atoi deviceId.val)
    (hloaded : Loaded statements s.devices (atoi deviceId.val)) :
    (∀ a ∈ Traced.saved .devices statements s.devices device.id,
        Allowed .ports deviceId.val id.val a) ↔
      ¬ (device.id = 0 ∧ Inserts statements s.devices) := by
  have hrow : ∀ use j, Allowed .ports deviceId.val id.val ⟨use, .row .devices j⟩ ↔
      j = device.id := by
    intro use j
    rw [allowed_row (by simp) hdevice rfl, ← hid]
    rfl
  by_cases hzero : device.id = 0
  · rw [hzero]
    by_cases hinserts : Inserts statements s.devices
    · refine iff_of_false (fun hall => ?_) fun hnot => hnot ⟨rfl, hinserts⟩
      rw [Traced.saved_new hinserts] at hall
      have hnext := (hrow .adds s.devices.nextId).mp (hall _ List.mem_cons_self)
      have hmem : s.devices.nextId ∈ s.devices.rows := by
        rw [hnext, hid]
        exact hloaded.2
      exact hinserts.2 hmem
    · rw [Traced.saved_none hinserts]
      simp [hinserts]
  · refine iff_of_true (fun a ha => ?_) fun hall => hzero hall.1
    rw [Traced.mem_saved hzero ha]
    exact (hrow .changes device.id).mpr rfl

/-- A body that is put in as a port. -/
def storeAndSave (statements : Statements) (c : Cajun) (live : Registry) (device stored : Device)
    (port : Port) : Traced (Option Bytes) := do
  traced.storing device port.id
  let _ ← Traced.save Device.model .devices statements c stored
  return some (Port.model.toJson c live port)

theorem storeAndSave_log (live : Registry) {stored : Device} (hid : stored.id = device.id)
    (port : Port) : (storeAndSave statements c live device stored port s).2 =
      storingAccess device port.id :: Traced.saved .devices statements s.devices device.id := by
  have hlog : (storeAndSave statements c live device stored port s).2 =
      storingAccess device port.id ::
        (Traced.saved .devices statements s.devices stored.id ++ []) := rfl
  rw [hlog, List.append_nil, hid]

/-- The accesses behind a body that can be read. -/
theorem allowed_stored (hdevice : InRange deviceId.val) (hid : device.id = atoi deviceId.val)
    (hloaded : Loaded statements s.devices (atoi deviceId.val)) (hout : ¬ OutOfRange id.val)
    (live : Registry) (stored : Device) (hstored : stored.id = device.id) (port : Port) :
    (∀ a ∈ (storeAndSave statements c live device stored port s).2,
        Allowed .ports deviceId.val id.val a) ↔
      (id.val = [] → device.getPort port.id = none) ∧ (id.val ≠ [] → port.id = atoi id.val) ∧
        ¬ (device.id = 0 ∧ Inserts statements s.devices) := by
  rw [storeAndSave_log live hstored, List.forall_mem_cons, allowed_storing hout,
    allowed_saved hdevice hid hloaded, and_assoc]

theorem portFromJson_read (p : Port) : Port.model.fromJson c request.postDataRaw p =
    (c.read request.postDataRaw).map portOfJson := by
  cases hread : c.read request.postDataRaw with
  | error e =>
      rw [ModelClass.fromJson, hread]
      rfl
  | ok doc =>
      rw [ModelClass.fromJson_of_read _ hread, portFromJson_eq]
      rfl

/-- What is asked of the action once the device is loaded. -/
def LoadedExact (statements : Statements) (c : Cajun) (request : Request) (live : Registry)
    (device : Device) (s : Server) (deviceId id : Digits) : Prop :=
  (∀ a ∈ (traced.portsLoaded statements c request live device s).2,
      Allowed .ports deviceId.val id.val a) ∧
    (OutOfRange id.val →
      (traced.portsLoaded statements c request live device s).1.1 = .ok none)

/-- A port that is not found is not shown. -/
theorem loadedExact_none {live : Registry} (hport : request.paramInt "id" = atoi id.val)
    (hm : request.method = .get ∨ request.method = .put)
    (hget : device.getPort (atoi id.val) = none) :
    LoadedExact statements c request live device s deviceId id := by
  have hrun : traced.portsLoaded statements c request live device s = ((.ok none, s), []) := by
    unfold traced.portsLoaded
    rcases hm with hm | hm
    · rw [hm, hport]
      dsimp only
      rw [hget]
      rfl
    · rw [hm, hport]
      dsimp only
      rw [hget]
      rfl
  rw [LoadedExact, hrun]
  exact ⟨by simp, fun _ => rfl⟩

/-- Of a GET. -/
theorem loadedExact_get {live : Registry} (hport : request.paramInt "id" = atoi id.val)
    (hm : request.method = .get) :
    LoadedExact statements c request live device s deviceId id ↔
      ((device.getPort (atoi id.val)).isSome → InRange id.val) := by
  cases hget : device.getPort (atoi id.val) with
  | none => exact iff_of_true (loadedExact_none hport (Or.inl hm) hget) nofun
  | some p =>
      have hread : Allowed .ports deviceId.val id.val ⟨.reads, .port (atoi id.val)⟩ ↔
          InRange id.val := allowed_present (by decide) rfl
      rw [LoadedExact]
      unfold traced.portsLoaded
      rw [hport, hm]
      dsimp only
      rw [hget]
      constructor
      · intro h _
        exact hread.mp (h.1 _ List.mem_cons_self)
      · intro h
        have hin : InRange id.val := h rfl
        refine ⟨fun a ha => ?_, fun hout => absurd hin hout.not_inRange⟩
        obtain rfl := List.mem_singleton.mp ha
        exact hread.mpr hin

/-- Of a POST. -/
theorem loadedExact_post {live : Registry} (hdevice : InRange deviceId.val)
    (hid : device.id = atoi deviceId.val)
    (hloaded : Loaded statements s.devices (atoi deviceId.val)) (hm : request.method = .post) :
    LoadedExact statements c request live device s deviceId id ↔
      ¬ OutOfRange id.val ∧ ∀ doc, c.read request.postDataRaw = .ok doc →
        (id.val = [] → device.getPort (portOfJson doc).id = none) ∧
          (id.val ≠ [] → (portOfJson doc).id = atoi id.val) ∧
            ¬ (device.id = 0 ∧ Inserts statements s.devices) := by
  rw [LoadedExact]
  unfold traced.portsLoaded
  rw [hm]
  dsimp only
  rw [portFromJson_read]
  cases hread : c.read request.postDataRaw with
  | error e =>
      constructor
      · intro h
        refine ⟨fun hout => ?_, nofun⟩
        cases h.2 hout
      · intro h
        exact ⟨by simp [Except.map], fun hout => absurd hout h.1⟩
  | ok doc =>
      have hstored := fun hout : ¬ OutOfRange id.val => allowed_stored (c := c) hdevice hid hloaded
        hout live (device.addPort (portOfJson doc)) rfl (portOfJson doc)
      constructor
      · intro h
        have hout : ¬ OutOfRange id.val := fun hout => by cases h.2 hout
        refine ⟨hout, fun doc' hdoc => ?_⟩
        cases hdoc
        exact (hstored hout).mp h.1
      · intro h
        exact ⟨(hstored h.1).mpr (h.2 doc rfl), fun hout => absurd hout h.1⟩

/-- Of a PUT. -/
theorem loadedExact_put {live : Registry} (hdevice : InRange deviceId.val)
    (hid : device.id = atoi deviceId.val)
    (hloaded : Loaded statements s.devices (atoi deviceId.val))
    (hport : request.paramInt "id" = atoi id.val) (hm : request.method = .put) :
    LoadedExact statements c request live device s deviceId id ↔
      ((device.getPort (atoi id.val)).isSome → InRange id.val ∧
        ∀ doc, c.read request.postDataRaw = .ok doc →
          (portOfJson doc).id = atoi id.val ∧ ¬ (device.id = 0 ∧ Inserts statements s.devices)) := by
  cases hget : device.getPort (atoi id.val) with
  | none => exact iff_of_true (loadedExact_none hport (Or.inr hm) hget) nofun
  | some p =>
      have hfound : Allowed .ports deviceId.val id.val ⟨.reads, .port (atoi id.val)⟩ ↔
          InRange id.val := allowed_present (by decide) rfl
      rw [LoadedExact]
      unfold traced.portsLoaded
      rw [hport, hm]
      dsimp only
      rw [hget]
      dsimp only
      rw [Traced.bind_note, portFromJson_read, List.forall_mem_cons, hfound]
      cases hread : c.read request.postDataRaw with
      | error e =>
          constructor
          · intro h _
            exact ⟨h.1.1, nofun⟩
          · intro h
            have hin : InRange id.val := (h rfl).1
            exact ⟨⟨hin, by simp [Except.map]⟩, fun hout => absurd hin hout.not_inRange⟩
      | ok doc =>
          have hstored := fun hin : InRange id.val => allowed_stored (c := c) hdevice hid hloaded
            (fun hout => hout.not_inRange hin) live (device.putPort p.1 (portOfJson doc)) rfl
            (portOfJson doc)
          constructor
          · intro h _
            have hin : InRange id.val := h.1.1
            refine ⟨hin, fun doc' hdoc => ?_⟩
            cases hdoc
            obtain ⟨-, hport, hsaved⟩ := (hstored hin).mp h.1.2
            exact ⟨hport hin.1, hsaved⟩
          · intro h
            obtain ⟨hin, hdoc⟩ := h rfl
            obtain ⟨hport, hsaved⟩ := hdoc doc rfl
            refine ⟨⟨hin, (hstored hin).mpr ⟨fun hnone => absurd hnone hin.1, fun _ => hport, hsaved⟩⟩,
              fun hout => ?_⟩
            exact absurd hin hout.not_inRange

/-- The action once the device is loaded. -/
theorem portsLoaded_exact (hdevice : InRange deviceId.val) (hid : device.id = atoi deviceId.val)
    (hloaded : Loaded statements s.devices (atoi deviceId.val))
    (hport : request.paramInt "id" = atoi id.val) (live : Registry) :
    LoadedExact statements c request live device s deviceId id ↔
      ResolvesPort statements c s.devices request.method id.val request.postDataRaw device := by
  cases hm : request.method with
  | options | delete | other =>
      have hrun : traced.portsLoaded statements c request live device s = ((.ok none, s), []) := by
        unfold traced.portsLoaded
        rw [hm]
        rfl
      rw [LoadedExact, hrun]
      exact iff_of_true ⟨by simp, fun _ => rfl⟩ ⟨nofun, nofun, nofun⟩
  | get =>
      rw [loadedExact_get hport hm]
      exact ⟨fun h => ⟨fun _ => h, nofun, nofun⟩, fun h => h.shown rfl⟩
  | post =>
      rw [loadedExact_post hdevice hid hloaded hm]
      exact ⟨fun h => ⟨nofun, fun _ => h, nofun⟩, fun h => h.created rfl⟩
  | put =>
      rw [loadedExact_put hdevice hid hloaded hport hm]
      exact ⟨fun h => ⟨nofun, nofun, fun _ => h⟩, fun h => h.updated rfl⟩

/-- An answered request for a port has to do with the port of the numeral. -/
theorem portsLoaded_complete (hport : request.paramInt "id" = atoi id.val) (live : Registry)
    (hallowed : ∀ a ∈ (traced.portsLoaded statements c request live device s).2,
      Allowed .ports deviceId.val id.val a) {data : Bytes}
    (hanswered : (traced.portsLoaded statements c request live device s).1.1 = .ok (some data))
    {j : Int32} (hj : (device.getPort j).isSome) (hnames : Names id.val j) :
    ∃ use, ⟨use, .port j⟩ ∈ (traced.portsLoaded statements c request live device s).2 := by
  obtain ⟨hin, rfl⟩ := (names_iff id j).mp hnames
  obtain ⟨p, hget⟩ := Option.isSome_iff_exists.mp hj
  unfold traced.portsLoaded at hallowed hanswered ⊢
  rw [hport] at hallowed hanswered ⊢
  cases hm : request.method with
  | options | delete | other =>
      rw [hm] at hanswered
      cases hanswered
  | get =>
      dsimp only
      rw [hget]
      exact ⟨.reads, List.mem_cons_self⟩
  | put =>
      dsimp only
      rw [hget]
      exact ⟨.reads, List.mem_cons_self⟩
  | post =>
      rw [hm] at hallowed hanswered
      dsimp only at hallowed hanswered ⊢
      rw [portFromJson_read] at hallowed hanswered ⊢
      cases hread : c.read request.postDataRaw with
      | error e =>
          rw [hread] at hanswered
          cases hanswered
      | ok doc =>
          rw [hread] at hallowed
          have hstoring : Allowed .ports deviceId.val id.val (storingAccess device (portOfJson doc).id) :=
            hallowed _ List.mem_cons_self
          have hid : atoi id.val = (portOfJson doc).id := (((allowed_port rfl).mp hstoring).2 hin.1).2
          refine ⟨(storingAccess device (portOfJson doc).id).use, ?_⟩
          rw [hid]
          exact List.mem_cons_self

theorem found_loaded {name : TableName} {table : Table} {i : Int32}
    (h : Loaded statements table i) :
    Traced.found name statements table i = [⟨.reads, .row name i⟩] := if_pos h

theorem found_missing {name : TableName} {table : Table} {i : Int32}
    (h : ¬ Loaded statements table i) : Traced.found name statements table i = [] := if_neg h

theorem load_device {i : Int32} {r : Except JsonException (Device × Bool)}
    (hload : Device.model.loadWhen statements c s.devices i {} = r) :
    Traced.load Device.model .devices statements c i {} s =
      ((r, s), Traced.found .devices statements s.devices i) := by
  rw [← hload]
  rfl

/-- The device is not there: nothing is done. -/
theorem ports_missing (hd : request.paramInt "device_id" = atoi deviceId.val)
    (hnot : ¬ Loaded statements s.devices (atoi deviceId.val)) :
    traced.ports statements c request s = ((.ok none, s), []) := by
  unfold traced.ports
  rw [Traced.bind_read, hd]
  cases hload : Device.model.loadWhen statements c s.devices (atoi deviceId.val) {} with
  | error e => exact absurd (loaded_of_error hload) hnot
  | ok r =>
      rw [Traced.bind_ok (load_device hload),
        if_pos (((device_keepsId.load hload).2 hnot).2), found_missing hnot]
      rfl

theorem ports_unread (hd : request.paramInt "device_id" = atoi deviceId.val) {e : JsonException}
    (he : Device.model.loadWhen statements c s.devices (atoi deviceId.val) {} = .error e) :
    traced.ports statements c request s =
      ((.error e, s), [⟨.reads, .row .devices (atoi deviceId.val)⟩]) := by
  unfold traced.ports
  rw [Traced.bind_read, hd, ← found_loaded (loaded_of_error he)]
  exact Traced.bind_error (load_device he) _

theorem ports_loaded (hd : request.paramInt "device_id" = atoi deviceId.val) {r : Device × Bool}
    (hload : Device.model.loadWhen statements c s.devices (atoi deviceId.val) {} = .ok r)
    (hloaded : Loaded statements s.devices (atoi deviceId.val)) :
    traced.ports statements c request s =
      ((traced.portsLoaded statements c request s.live r.1 s).1,
        ⟨.reads, .row .devices (atoi deviceId.val)⟩ ::
          (traced.portsLoaded statements c request s.live r.1 s).2) := by
  have hfound : r.2 = true := ((device_keepsId.load hload).1 hloaded).2
  unfold traced.ports
  rw [Traced.bind_read, hd,
    Traced.bind_ok (load_device hload),
    if_neg (by rw [hfound]; decide), found_loaded hloaded]
  rfl

theorem allowed_loaded :
    Allowed .ports deviceId.val id.val ⟨.reads, .row .devices (atoi deviceId.val)⟩ ↔
      InRange deviceId.val :=
  ⟨inRange_of_allowed (by simp) rfl, fun hin => (allowed_row (by simp) hin rfl).mpr rfl⟩

/-- The device's row cannot be read. -/
theorem portsUnread_exact (hd : request.paramInt "device_id" = atoi deviceId.val) {e : JsonException}
    (he : Device.model.loadWhen statements c s.devices (atoi deviceId.val) {} = .error e) :
    IdsExact statements c s .ports deviceId.val id.val
        (answer (traced.ports statements c request) s) ↔
      InRange deviceId.val ∧ ¬ OutOfRange id.val := by
  have hrun : traced.ports statements c request s =
      ((.error e, s), [⟨.reads, .row .devices (atoi deviceId.val)⟩]) := ports_unread hd he
  constructor
  · intro hexact
    refine ⟨allowed_loaded.mp (hexact.only _ ?_), fun hout => ?_⟩
    · rw [answer_log, hrun]
      exact List.mem_cons_self
    · have hrefused := answer_refused.mp (hexact.refused (Or.inl hout))
      rw [hrun] at hrefused
      cases hrefused
  · rintro ⟨hin, hnot⟩
    refine ⟨fun a ha => ?_, fun hout => ?_, fun hanswered => ?_⟩
    · rw [answer_log, hrun] at ha
      obtain rfl := List.mem_singleton.mp ha
      exact allowed_loaded.mpr hin
    · rcases hout with hout | ⟨-, hout⟩
      · exact absurd hout hnot
      · exact absurd hin hout.not_inRange
    · obtain ⟨data, hdata⟩ := answer_answered.mp hanswered
      rw [hrun] at hdata
      cases hdata

/-- The device is there. -/
theorem portsFound_exact (hd : request.paramInt "device_id" = atoi deviceId.val)
    (hid : request.paramInt "id" = atoi id.val) {r : Device × Bool}
    (hload : Device.model.loadWhen statements c s.devices (atoi deviceId.val) {} = .ok r)
    (hloaded : Loaded statements s.devices (atoi deviceId.val)) :
    IdsExact statements c s .ports deviceId.val id.val
        (answer (traced.ports statements c request) s) ↔
      InRange deviceId.val ∧
        ResolvesPort statements c s.devices request.method id.val request.postDataRaw r.1 := by
  have hrun : traced.ports statements c request s =
      ((traced.portsLoaded statements c request s.live r.1 s).1,
        ⟨.reads, .row .devices (atoi deviceId.val)⟩ ::
          (traced.portsLoaded statements c request s.live r.1 s).2) := ports_loaded hd hload hloaded
  have hdeviceId : r.1.id = atoi deviceId.val := ((device_keepsId.load hload).1 hloaded).1
  constructor
  · intro hexact
    have honly : ∀ a ∈ (traced.ports statements c request s).2,
        Allowed .ports deviceId.val id.val a := by
      rw [← answer_log]
      exact hexact.only
    rw [hrun, List.forall_mem_cons] at honly
    have hin : InRange deviceId.val := allowed_loaded.mp honly.1
    refine ⟨hin, (portsLoaded_exact hin hdeviceId hloaded hid s.live).mp ⟨honly.2, fun hout => ?_⟩⟩
    have hrefused := answer_refused.mp (hexact.refused (Or.inl hout))
    rw [hrun] at hrefused
    exact hrefused
  · rintro ⟨hin, hport⟩
    obtain ⟨hallowed, hrefused⟩ := (portsLoaded_exact hin hdeviceId hloaded hid s.live).mpr hport
    refine ⟨fun a ha => ?_, fun hout => ?_, fun hanswered hcarried e he hnames => ?_⟩
    · rw [answer_log, hrun] at ha
      rcases List.mem_cons.mp ha with rfl | ha
      · exact allowed_loaded.mpr hin
      · exact hallowed a ha
    · rcases hout with hout | ⟨-, hout⟩
      · rw [answer_refused, hrun]
        exact hrefused hout
      · exact absurd hin hout.not_inRange
    · obtain ⟨data, hdata⟩ := answer_answered.mp hanswered
      rw [answer_log]
      rw [hrun] at hdata ⊢
      cases e with
      | live i => exact he.elim
      | row name i =>
          cases name with
          | users => exact he.elim
          | devices =>
              obtain ⟨-, rfl⟩ := (names_iff deviceId i).mp hnames
              exact ⟨.reads, List.mem_cons_self⟩
      | port j =>
          obtain ⟨i, device, hi, hfound, hj⟩ := he
          obtain ⟨-, rfl⟩ := (names_iff deviceId i).mp hi
          rw [ModelClass.loadWhen, if_pos hcarried.select, hfound] at hload
          cases hload
          obtain ⟨use, huse⟩ := portsLoaded_complete hid s.live hallowed hdata hj hnames
          exact ⟨use, List.mem_cons_of_mem _ huse⟩

/-- The requests for ports that resolve their ids. -/
theorem ports_exact (hd : request.params "device_id" = deviceId.val)
    (hid : request.params "id" = id.val) :
    IdsExact statements c s .ports deviceId.val id.val
        (answer (traced.ports statements c request) s) ↔
      (Loaded statements s.devices (atoi deviceId.val) →
        ResolvesPorts statements c s request.method deviceId.val id.val request.postDataRaw) := by
  have hd' : request.paramInt "device_id" = atoi deviceId.val := congrArg atoi hd
  have hid' : request.paramInt "id" = atoi id.val := congrArg atoi hid
  by_cases hloaded : Loaded statements s.devices (atoi deviceId.val)
  · rw [forall_prop_of_true hloaded]
    cases hload : Device.model.loadWhen statements c s.devices (atoi deviceId.val) {} with
    | error e =>
        rw [portsUnread_exact hd' hload]
        constructor
        · rintro ⟨hin, hnot⟩
          refine ⟨hin, fun _ _ => hnot, fun r hr => ?_⟩
          rw [hload] at hr
          cases hr
        · intro h
          exact ⟨h.device, h.unread e hload⟩
    | ok r =>
        rw [portsFound_exact hd' hid' hload hloaded]
        constructor
        · rintro ⟨hin, hport⟩
          refine ⟨hin, fun e he => ?_, fun r' hr => ?_⟩
          · rw [hload] at he
            cases he
          · rw [hload] at hr
            cases hr
            exact hport
        · intro h
          exact ⟨h.device, h.port r hload⟩
  · exact iff_of_true (idsExact_refused (ports_missing hd' hloaded) (by simp))
      fun hnot => absurd hnot hloaded

end Ports

/-! ## 2. Setting a port -/

section SetPort

variable {statements : Statements} {c : Cajun} {s : Server} {request : Request} {deviceId id : Digits}
  {device : DeviceState}

/-- The device or the port is not there. -/
theorem setPort_noDevice (hlive : s.live (request.paramInt "device_id") = none) :
    traced.setPort c request s = ((.ok none, s), []) := by
  unfold traced.setPort
  rw [Traced.bind_read, hlive]
  rfl

theorem setPort_noPort (hlive : s.live (request.paramInt "device_id") = some device)
    (hport : device.port (request.paramInt "id") = none) :
    traced.setPort c request s =
      ((.ok none, s), [⟨.reads, .live (request.paramInt "device_id")⟩]) := by
  unfold traced.setPort
  rw [Traced.bind_read, hlive]
  dsimp only
  rw [Traced.bind_note, hport]
  rfl

/-- Both are there, and nothing else is read or changed. -/
theorem setPort_found (hlive : s.live (request.paramInt "device_id") = some device)
    (hport : (device.port (request.paramInt "id")).isSome) : ∃ r rest,
    traced.setPort c request s = (r, ⟨.reads, .live (request.paramInt "device_id")⟩ ::
        ⟨.reads, .port (request.paramInt "id")⟩ :: rest) ∧
      ∀ a ∈ rest, a = ⟨.changes, .live (request.paramInt "device_id")⟩ ∨
        a = ⟨.changes, .port (request.paramInt "id")⟩ := by
  obtain ⟨port, hport⟩ := Option.isSome_iff_exists.mp hport
  unfold traced.setPort
  rw [Traced.bind_read, hlive]
  dsimp only
  rw [Traced.bind_note, hport]
  dsimp only
  rw [Traced.bind_note]
  refine ⟨_, _, rfl, ?_⟩
  by_cases hbody : request.postDataRaw = []
  · rw [if_pos hbody]
    simp
  rw [if_neg hbody]
  cases c.read request.postDataRaw with
  | error e => simp
  | ok doc =>
      intro a ha
      have hlog : a ∈ [Access.mk .changes (.port (request.paramInt "id")),
          ⟨.changes, .live (request.paramInt "device_id")⟩] := ha
      rcases List.mem_cons.mp hlog with rfl | ha
      · exact Or.inr rfl
      · exact Or.inl (List.mem_singleton.mp ha)

theorem allowed_live :
    Allowed .setPort deviceId.val id.val ⟨.reads, .live (atoi deviceId.val)⟩ ↔ InRange deviceId.val :=
  ⟨inRange_of_allowed (by simp) rfl, fun hin => (allowed_row (by simp) hin rfl).mpr rfl⟩

/-- The device and the port are there. -/
theorem setPortFound_exact (hd : request.paramInt "device_id" = atoi deviceId.val)
    (hid : request.paramInt "id" = atoi id.val) (hdevice : s.live (atoi deviceId.val) = some device)
    (hfound : (device.port (atoi id.val)).isSome) :
    IdsExact statements c s .setPort deviceId.val id.val (answer (traced.setPort c request) s) ↔
      InRange deviceId.val ∧ InRange id.val := by
  have hport : ∀ use, InRange id.val → Allowed .setPort deviceId.val id.val
      ⟨use, .port (atoi id.val)⟩ := fun use hin =>
    (allowed_port rfl).mpr ⟨fun hnone => absurd hnone hin.1, fun _ => ⟨hin, rfl⟩⟩
  obtain ⟨r, rest, hrun, hrest⟩ : ∃ r rest, traced.setPort c request s =
      (r, ⟨.reads, .live (atoi deviceId.val)⟩ :: ⟨.reads, .port (atoi id.val)⟩ :: rest) ∧
        ∀ a ∈ rest, a = ⟨.changes, .live (atoi deviceId.val)⟩ ∨
          a = ⟨.changes, .port (atoi id.val)⟩ := by
    rw [← hd, ← hid]
    exact setPort_found (hd.symm ▸ hdevice) (hid.symm ▸ hfound)
  constructor
  · intro hexact
    have honly : ∀ a ∈ (traced.setPort c request s).2,
        Allowed .setPort deviceId.val id.val a := by
      rw [← answer_log]
      exact hexact.only
    rw [hrun, List.forall_mem_cons, List.forall_mem_cons] at honly
    exact ⟨allowed_live.mp honly.1, (allowed_present (by decide) rfl).mp honly.2.1⟩
  · rintro ⟨hin, hin'⟩
    refine ⟨?_, fun hout => ?_, fun _ _ e he hnames => ?_⟩
    · rw [answer_log, hrun, List.forall_mem_cons, List.forall_mem_cons]
      refine ⟨allowed_live.mpr hin, hport .reads hin', fun a ha => ?_⟩
      rcases hrest a ha with rfl | rfl
      · exact (allowed_row (by simp) hin rfl).mpr rfl
      · exact hport .changes hin'
    · rcases hout with hout | ⟨-, hout⟩
      · exact absurd hin' hout.not_inRange
      · exact absurd hin hout.not_inRange
    · rw [answer_log, hrun]
      cases e with
      | row name i => exact he.elim
      | live i =>
          obtain ⟨-, rfl⟩ := (names_iff deviceId i).mp hnames
          exact ⟨.reads, List.mem_cons_self⟩
      | port j =>
          obtain ⟨-, rfl⟩ := (names_iff id j).mp hnames
          exact ⟨.reads, List.mem_cons_of_mem _ List.mem_cons_self⟩

/-- The requests to set a port that resolve their ids. -/
theorem setPort_exact (hd : request.params "device_id" = deviceId.val)
    (hid : request.params "id" = id.val) :
    IdsExact statements c s .setPort deviceId.val id.val (answer (traced.setPort c request) s) ↔
      ResolvesSetPort s deviceId.val id.val := by
  have hd' : request.paramInt "device_id" = atoi deviceId.val := congrArg atoi hd
  have hid' : request.paramInt "id" = atoi id.val := congrArg atoi hid
  cases hdevice : s.live (atoi deviceId.val) with
  | none =>
      refine iff_of_true (idsExact_refused (setPort_noDevice (hd'.symm ▸ hdevice)) (by simp))
        fun device h => ?_
      rw [hdevice] at h
      cases h
  | some device =>
      have hresolves : ResolvesSetPort s deviceId.val id.val ↔
          InRange deviceId.val ∧ ((device.port (atoi id.val)).isSome → InRange id.val) := by
        simp [ResolvesSetPort, hdevice]
      rw [hresolves]
      by_cases hfound : (device.port (atoi id.val)).isSome
      · rw [setPortFound_exact hd' hid' hdevice hfound, forall_prop_of_true hfound]
      · have hrun : traced.setPort c request s =
            ((.ok none, s), [⟨.reads, .live (atoi deviceId.val)⟩]) := by
          rw [← hd']
          exact setPort_noPort (hd'.symm ▸ hdevice) (Option.not_isSome_iff_eq_none.mp (hid'.symm ▸ hfound))
        constructor
        · intro hexact
          have hlog : Access.mk .reads (.live (atoi deviceId.val)) ∈
              (answer (traced.setPort c request) s).2 := by
            rw [answer_log, hrun]
            exact List.mem_cons_self
          exact ⟨allowed_live.mp (hexact.only _ hlog), fun h => absurd h hfound⟩
        · rintro ⟨hin, -⟩
          refine idsExact_refused hrun fun a ha => ?_
          obtain rfl := List.mem_singleton.mp ha
          exact allowed_live.mpr hin

end SetPort

end Httpd

end Domoio
