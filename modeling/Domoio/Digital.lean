import Domoio.Reports

/-
  File:      Domoio/Digital.lean
  Subject:   Digital ports under the three writers: -1, 0 and 1, and the messages they cause.

  Live devices with the messages signalled to each, as the HTTP action, the JavaScript setter and
  `aps` write their ports. The HTTP action converts by the kind of the port; the other two hand the
  integer they read to `set_value` as it is. `digital_exact` says in which runs every digital port
  stays one.
-/

namespace Domoio

open Lib

namespace WatchedDevice

variable {s s' : WatchedDevice} {messages : List Bytes} {id : Int32} {p : PortState}

/-! ## 1. Messages -/

/-- The messages of a call on the port with this id, if there is one. -/
def callSignals (s : WatchedDevice) (id : Int32) (call : DeviceState → PortState → SetEffect) :
    List Bytes :=
  match s.device.port id with
  | none => []
  | some p => (call s.device p).signals

/-- The messages a request signals to the device. -/
def signalled (s : WatchedDevice) : PortAction → List Bytes
  | .httpSetPort id doc => s.callSignals id fun d p => d.httpSetPort p doc
  | .jsSetPortValue id value junk => s.callSignals id fun d p => d.jsSetPortValue p value junk
  | .aps _ _ => []

/-- The device with the messages signalled to it. -/
def signalling : Machine (WatchedDevice × List Bytes) PortAction Empty :=
  machine.track (fun _ _ => True) fun messages s act => messages ++ s.signalled act

/-! ## 2. Digital values -/

/-- A digital port has not been set, or is off or on. -/
def DigitalValue (v : Int32) : Prop := v = -1 ∨ v = 0 ∨ v = 1

/-- The digital ports of a device have digital values, and were sent 0 and 1 only. -/
structure Digital (s : WatchedDevice × List Bytes) : Prop where
  value : ∀ {id p}, s.1.device.port id = some p → p.digital = true → DigitalValue p.value
  message : ∀ {id p v}, s.1.device.port id = some p → p.digital = true → setMessage id v ∈ s.2 →
    v = 0 ∨ v = 1

/-- A value for a port of the device: the port is analog, or it is 0 or 1, or it is the -1 of a
    device that is sent nothing. -/
def Fits (d : DeviceState) (p : PortState) (v : Int32) : Prop :=
  p.digital = true → v = 0 ∨ v = 1 ∨ (v = -1 ∧ d.isNetworkDevice = false)

/-- What a store leaves digital fits. -/
theorem Digital.fits (hk : s.device.Keyed) (hp : s.device.port id = some p) {v : Int32}
    (hv : p.value ≠ v)
    (h : Digital (s.after (s.device.setValue p v), messages ++ (s.device.setValue p v).signals)) :
    Fits s.device p v := by
  intro hdigital
  have hself : (s.after (s.device.setValue p v)).device.port id = some { p with value := v } :=
    (DeviceState.port_setValue hk hp v false id).trans (if_pos rfl)
  rcases h.value hself hdigital with hset | hset
  · -- a network device has been sent the value
    have hset : v = -1 := hset
    refine Or.inr (Or.inr ⟨hset, ?_⟩)
    by_contra hnet
    have hmem : setMessage id v ∈ messages ++ (s.device.setValue p v).signals := by
      rw [World.signals_setValue hv, hk hp, if_pos (by simpa using hnet)]
      simp
    rcases h.message hself hdigital hmem with hv' | hv' <;> rw [hset] at hv' <;> cases hv'
  · rcases hset with hset | hset
    · exact Or.inl hset
    · exact Or.inr (Or.inl hset)

/-- A value that fits is stored, and sent. -/
theorem Digital.stored (h : Digital (s, messages)) (hk : s.device.Keyed)
    (hp : s.device.port id = some p) {v : Int32} (hv : p.value ≠ v) (hfits : Fits s.device p v) :
    Digital (s.after (s.device.setValue p v), messages ++ (s.device.setValue p v).signals) := by
  have hport : ∀ j, (s.after (s.device.setValue p v)).device.port j =
      if j = id then some { p with value := v } else s.device.port j :=
    DeviceState.port_setValue hk hp v false
  refine ⟨?_, ?_⟩
  · intro j q hq hdigital
    have hq := (hport j).symm.trans hq
    split at hq
    · cases hq
      rcases hfits hdigital with hv' | hv' | ⟨hv', -⟩
      · exact Or.inr (Or.inl hv')
      · exact Or.inr (Or.inr hv')
      · exact Or.inl hv'
    · exact h.value hq hdigital
  · intro j q u hq hdigital hmem
    have hq := (hport j).symm.trans hq
    have hold : ∃ q₀, s.device.port j = some q₀ ∧ q₀.digital = true := by
      split at hq
      · rename_i hj
        cases hq
        exact ⟨p, hj ▸ hp, hdigital⟩
      · exact ⟨q, hq, hdigital⟩
    obtain ⟨q₀, hq₀, hdigital₀⟩ := hold
    rcases List.mem_append.mp hmem with hmem | hmem
    · exact h.message hq₀ hdigital₀ hmem
    rw [World.signals_setValue hv, hk hp] at hmem
    split at hmem
    · rename_i hnet
      obtain ⟨rfl, rfl⟩ := setMessage_inj (List.mem_singleton.mp hmem)
      rw [hp] at hq₀
      cases hq₀
      rcases hfits hdigital₀ with hv' | hv' | ⟨-, hvirtual⟩
      · exact Or.inl hv'
      · exact Or.inr hv'
      · rw [hnet] at hvirtual
        cases hvirtual
    · cases hmem

/-- A call that sets values leaves a digital device so exactly when its value fits or is the one the
    port has. -/
theorem digital_setter (hk : s.device.Keyed) (h : Digital (s, messages)) (id : Int32)
    (value : PortState → Int32) :
    Digital (s.setPort id (fun d p => d.setValue p (value p)),
        messages ++ s.callSignals id fun d p => d.setValue p (value p)) ↔
      ∀ p, s.device.port id = some p → p.value ≠ value p → Fits s.device p (value p) := by
  unfold setPort callSignals
  cases hp : s.device.port id with
  | none =>
      refine iff_of_true ?_ fun p hp => by cases hp
      simpa using h
  | some p =>
      by_cases hv : p.value = value p
      · refine iff_of_true ?_ ?_
        · simpa [DeviceState.setValue_of_eq _ _ _ _ hv, after] using h
        · intro q hq hne
          cases hq
          exact absurd hv hne
      · constructor
        · intro h' q hq _
          cases hq
          exact h'.fits hk hp hv
        · intro hfits
          exact h.stored hk hp hv (hfits p rfl hv)

/-- An `aps` leaves a digital device so exactly when the last values it gives its digital ports are
    digital. -/
theorem digital_aps (hk : s.device.Keyed) (h : Digital (s, messages)) (params : List Bytes)
    (junk : Nat → Int32 × Int32) :
    Digital ({ s with device := (World.commands.apsLoop junk 0 params s.device).1 }, messages) ↔
      ∀ id p, s.device.port id = some p → p.digital = true →
        DigitalValue (World.lastValue (apsWrites s.device junk 0 params) id p.value) := by
  have hport := port_apsLoop hk junk 0 params
  simp only [World.valueAfter_eq] at hport
  constructor
  · intro h' id p hp hdigital
    exact h'.value ((hport id).trans (congrArg _ hp)) hdigital
  · intro hvalues
    refine ⟨?_, ?_⟩
    · intro id q hq hdigital
      obtain ⟨p, hp, rfl⟩ := Option.map_eq_some_iff.mp ((hport id).symm.trans hq)
      exact hvalues id p hp hdigital
    · intro id q v hq hdigital hmem
      obtain ⟨p, hp, rfl⟩ := Option.map_eq_some_iff.mp ((hport id).symm.trans hq)
      exact h.message hp hdigital hmem

/-! ## 3. Runs -/

/-- What a request may do: the JavaScript setter gives a port whose value it changes one that fits,
    an `aps` leaves digital ports with digital values. The HTTP action always does. -/
def StaysDigital (s : WatchedDevice × List Bytes) (act : PortAction) : Prop :=
  match act with
  | .httpSetPort _ _ => True
  | .jsSetPortValue id value junk => ∀ p, s.1.device.port id = some p →
      p.value ≠ DeviceState.jsValue value junk →
        Fits s.1.device p (DeviceState.jsValue value junk)
  | .aps params junk => ∀ id p, s.1.device.port id = some p → p.digital = true →
      DigitalValue (World.lastValue (apsWrites s.1.device junk 0 params) id p.value)

/-- The boolean an HTTP request sets on a digital port is 0 or 1. -/
theorem fits_httpValue (d : DeviceState) (p : PortState) (doc : Object) :
    Fits d p (DeviceState.httpValue p doc) := by
  intro hdigital
  rw [DeviceState.httpValue, if_pos hdigital]
  cases (Object.get doc "value").toBoolean with
  | true => exact Or.inr (Or.inl rfl)
  | false => exact Or.inl rfl

theorem keyed_setPort (hk : s.device.Keyed) (id : Int32) (value : PortState → Int32) :
    (s.setPort id fun d p => d.setValue p (value p)).device.Keyed := by
  unfold setPort
  cases hp : s.device.port id with
  | none => exact hk
  | some p => exact hk.setValue hp (value p) false

theorem digital_step {act : PortAction} (hk : s.device.Keyed) (h : Digital (s, messages))
    (hs : s.step act = .ok s') : s'.device.Keyed ∧
      (Digital (s', messages ++ s.signalled act) ↔ StaysDigital (s, messages) act) := by
  cases act with
  | httpSetPort id doc =>
      cases hs
      simp only [signalled, DeviceState.httpSetPort_eq]
      refine ⟨keyed_setPort hk id fun p => DeviceState.httpValue p doc, ?_⟩
      · rw [digital_setter hk h]
        exact iff_of_true (fun p _ _ => fits_httpValue _ p doc) trivial
  | jsSetPortValue id value junk =>
      cases hs
      simp only [signalled, DeviceState.jsSetPortValue_eq]
      refine ⟨keyed_setPort hk id fun _ => DeviceState.jsValue value junk, ?_⟩
      · exact digital_setter hk h id fun _ => DeviceState.jsValue value junk
  | aps params junk =>
      cases hs
      refine ⟨hk.apsLoop junk 0 params, ?_⟩
      rw [signalled, List.append_nil]
      exact digital_aps hk h params junk

theorem digital_new (device : Device) : Digital ({ device := DeviceState.new device }, []) where
  value hp _ := Or.inl (DeviceState.value_new hp)
  message _ _ h := by cases h

/-- Devices and what has been signalled to each. -/
def fleet (ι : Type) [DecidableEq ι] :
    Machine (ι → WatchedDevice × List Bytes) (ι × PortAction) Empty := signalling.family ι

/-- The devices as they are built. -/
def freshFleet {ι : Type} (devices : ι → Device) (i : ι) : WatchedDevice × List Bytes :=
  ({ device := DeviceState.new (devices i) }, [])

/-- The digital ports of all devices stay digital throughout a run exactly when every request of it
    keeps those of its device so. -/
theorem digital_exact {ι : Type} [DecidableEq ι] {devices : ι → Device}
    {tr : List ((ι → WatchedDevice × List Bytes) × ι × PortAction)}
    {s : ι → WatchedDevice × List Bytes} (hrun : (fleet ι).Run (freshFleet devices) tr s) :
    Machine.States (fun s => ∀ i, Digital (s i)) tr s ↔
      Machine.Steps (fun s a => StaysDigital (s a.1) a.2) tr := by
  refine hrun.exact_family (J := fun s => s.1.device.Keyed ∧ Digital s)
    (fun i => ⟨@DeviceState.keyed_new (devices i), digital_new (devices i)⟩) (fun _ h => h.2) ?_ ?_
  · intro s act s' hJ _ hs hq
    obtain ⟨hs, hmessages⟩ := Machine.track_step hs
    obtain ⟨hk, hiff⟩ := digital_step hJ.1 hJ.2 hs
    refine ⟨hk, ?_⟩
    have hdigital := hiff.mpr hq
    rw [← hmessages] at hdigital
    exact hdigital
  · intro s act s' hJ _ hs hq hP
    obtain ⟨hs, hmessages⟩ := Machine.track_step hs
    obtain ⟨-, hiff⟩ := digital_step hJ.1 hJ.2 hs
    refine hq (hiff.mp ?_)
    rw [← hmessages]
    exact hP

/-! ## 4. A lamp that reports a number -/

/-- The device reports 7 for its digital port. -/
def brightReport : List (Unit × PortAction) := [((), .aps [ascii "3:7"] fun _ => (0, 0))]

instance (s : Unit → WatchedDevice × List Bytes) (a : Unit × PortAction) :
    Decidable ((fleet Unit).enabled s a) := .isTrue ⟨trivial, trivial⟩

theorem digital_exact_brightReport : ∃ tr s,
    (fleet Unit).exec [] (freshFleet fun _ => World.lamp) brightReport = some (tr, s) ∧
      (Machine.States (fun s => ∀ i, Digital (s i)) tr s ↔
        Machine.Steps (fun s a => StaysDigital (s a.1) a.2) tr) := by
  obtain ⟨⟨tr, s⟩, he⟩ : ∃ r, (fleet Unit).exec [] (freshFleet fun _ => World.lamp) brightReport =
      some r := Option.isSome_iff_exists.mp (by decide)
  exact ⟨tr, s, he, digital_exact (Machine.Run.start.exec he)⟩

/-- Its port has that value afterwards. -/
theorem not_digital_brightReport :
    ¬ ∀ (devices : Unit → Device) (tr : List ((Unit → WatchedDevice × List Bytes) × Unit × PortAction))
      (s : Unit → WatchedDevice × List Bytes), (fleet Unit).Run (freshFleet devices) tr s →
        Machine.States (fun s => ∀ i, Digital (s i)) tr s := by
  intro h
  obtain ⟨⟨tr, s⟩, he⟩ : ∃ r, (fleet Unit).exec [] (freshFleet fun _ => World.lamp) brightReport =
      some r := Option.isSome_iff_exists.mp (by decide)
  have hfinal : ((fleet Unit).exec [] (freshFleet fun _ => World.lamp) brightReport).all (fun r =>
      ((r.2 ()).1.device.port 3).any fun p => p.digital ∧ p.value = 7) = true := by decide
  rw [he, Option.all_some, Option.any_eq_true] at hfinal
  obtain ⟨p, hp, hbad⟩ := hfinal
  obtain ⟨hdigital, hvalue⟩ := of_decide_eq_true hbad
  have hset := ((h _ tr s (Machine.Run.start.exec he)).2 ()).value hp hdigital
  rw [hvalue] at hset
  exact absurd hset (by unfold DigitalValue; decide)

end WatchedDevice

end Domoio
