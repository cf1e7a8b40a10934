import Domoio.Lib.Machine
import Domoio.Lib.Replay
import Domoio.Simulation

/-
  File:      Domoio/PortEvents.lean
  Subject:   The `port_set` events of a device against the values of its ports.

  A live device with what it has published since it was created, as the HTTP action, the JavaScript
  setter and `aps` write its ports. Those who only see the events (the web UI) replay them.
  `portEvents_exact` says in which runs the replay shows what the ports' own JSON shows: `aps` must
  not change what is shown, since it writes silently.
-/

namespace Domoio

open Lib

/-! ## 1. The device and its log -/

/-- A live device and the events it has published. -/
structure WatchedDevice where
  device : DeviceState
  published : List Event := []

namespace WatchedDevice

/-- A write of the device's ports. -/
inductive PortAction where
  | httpSetPort (portId : Int32) (doc : Object)
  | jsSetPortValue (portId : Int32) (value : World.JsValue) (junk : Int32)
  | aps (params : List Bytes) (junk : Nat → Int32 × Int32)

/-- The effect of a `set_value` call. -/
def after (s : WatchedDevice) (e : SetEffect) : WatchedDevice where
  device := e.device
  published := s.published ++ e.events

/-- A call on the port with this id, if there is one. -/
def setPort (s : WatchedDevice) (portId : Int32) (call : DeviceState → PortState → SetEffect) :
    WatchedDevice :=
  match s.device.port portId with
  | none => s
  | some p => s.after (call s.device p)

def step (s : WatchedDevice) : PortAction → Except Empty WatchedDevice
  | .httpSetPort portId doc => .ok (s.setPort portId fun d p => d.httpSetPort p doc)
  | .jsSetPortValue portId value junk =>
      .ok (s.setPort portId fun d p => d.jsSetPortValue p value junk)
  | .aps params junk => .ok { s with device := (World.commands.apsLoop junk 0 params s.device).1 }

def machine : Machine WatchedDevice PortAction Empty := ⟨fun _ _ => True, step⟩

/-! ## 2. What the events show -/

/-- The port an event is about, as its JSON names it: `device_id` and `port_id`. -/
def eventPort (e : Event) : Rat × Rat :=
  ((Object.get e.toJson "device_id").toNumber, (Object.get e.toJson "port_id").toNumber)

/-- The `value` of an event's JSON. -/
def eventValue (e : Event) : Json := Object.get e.toJson "value"

/-- A port as the events' JSON names it. -/
def portName (deviceId portId : Int32) : Rat × Rat := (doubleOfInt deviceId, doubleOfInt portId)

/-- The value the events show for a port. -/
def shown (s : WatchedDevice) (portId : Int32) : Option Json :=
  replay eventPort eventValue s.published (portName s.device.id portId)

/-- The new value of a port's last event. -/
def announced (s : WatchedDevice) (portId : Int32) : Option Int32 :=
  replay eventPort Event.newValue s.published (portName s.device.id portId)

/-- The `value` of a port's own JSON. -/
def portValue (p : PortState) : Json := Object.get (p.toJsonObject []) "value"

/-- The events show the value of every port of `given`, and those of one port chain. -/
structure Shows (s : WatchedDevice) (given : List Int32) : Prop where
  value : ∀ {id p}, s.device.port id = some p → id ∈ given → s.shown id = some (portValue p)
  chained : Chained eventPort Event.oldValue Event.newValue s.published

theorem portValue_eq (p : PortState) : portValue p = portValueJson p.digital p.value := rfl

theorem portName_injective (x : Int32) : Function.Injective (portName x) := by
  intro a b h
  have hd : doubleOfInt a = doubleOfInt b := congrArg Prod.snd h
  rw [← intOfDouble_doubleOfInt a, hd, intOfDouble_doubleOfInt]

/-! ## 3. Writes -/

/-- The values the parameters of an `aps` give ports, from parameter `i` on: it stops at a port it
    does not find. -/
def apsWrites (d : DeviceState) (junk : Nat → Int32 × Int32) (i : Nat) (params : List Bytes) :
    List (Int32 × Int32) :=
  ((params.zipIdx i).map fun q => World.commands.apsTarget (junk q.2) q.1).takeWhile
    fun t => (d.port t.1).isSome

/-- The values a request gives ports, in order. -/
def writes (d : DeviceState) : PortAction → List (Int32 × Int32)
  | .httpSetPort id doc => ((d.port id).map fun p => (id, DeviceState.httpValue p doc)).toList
  | .jsSetPortValue id value junk =>
      ((d.port id).map fun _ => (id, DeviceState.jsValue value junk)).toList
  | .aps params junk => apsWrites d junk 0 params

/-- The value a list of writes leaves a port with. -/
def valueAfter (l : List (Int32 × Int32)) (id v : Int32) : Int32 :=
  l.foldl (fun v t => if t.1 = id then t.2 else v) v

/-- The ports whose value a list of writes changes. -/
def changed (d : DeviceState) (l : List (Int32 × Int32)) : List Int32 :=
  (l.filter fun t => (d.port t.1).any fun p => p.value ≠ t.2).map Prod.fst

theorem apsWrites_missing {d : DeviceState} (junk : Nat → Int32 × Int32) (i : Nat) (param : Bytes)
    (params : List Bytes) (hp : d.port (World.commands.apsTarget (junk i) param).1 = none) :
    apsWrites d junk i (param :: params) = [] := by
  simp [apsWrites, hp]

theorem apsWrites_found {d : DeviceState} {p : PortState} (junk : Nat → Int32 × Int32) (i : Nat)
    (param : Bytes) (params : List Bytes)
    (hp : d.port (World.commands.apsTarget (junk i) param).1 = some p) :
    apsWrites d junk i (param :: params) =
      World.commands.apsTarget (junk i) param :: apsWrites d junk (i + 1) params := by
  rw [apsWrites, List.zipIdx_cons, List.map_cons, List.takeWhile_cons_of_pos (by rw [hp]; rfl)]
  rfl

/-- The ports after an `aps`. -/
theorem port_apsLoop {d : DeviceState} (hd : d.Keyed) (junk : Nat → Int32 × Int32) (i : Nat)
    (params : List Bytes) (id : Int32) :
    (World.commands.apsLoop junk i params d).1.port id = (d.port id).map fun p =>
      { p with value := valueAfter (apsWrites d junk i params) id p.value } := by
  induction params generalizing i d with
  | nil =>
      show d.port id = _
      simp [valueAfter, apsWrites]
  | cons param params ih =>
      cases hp : d.port (World.commands.apsTarget (junk i) param).1 with
      | none =>
          rw [DeviceState.apsLoop_missing junk i param params hp,
            apsWrites_missing junk i param params hp]
          simp [valueAfter]
      | some p =>
          have hwrites : apsWrites (d.setValue p (World.commands.apsTarget (junk i) param).2
              true).device junk (i + 1) params = apsWrites d junk (i + 1) params := by
            simp only [apsWrites, DeviceState.isSome_port_setValue hd hp]
          rw [DeviceState.apsLoop_found junk i param params hp, ih (hd.setValue hp _ true), hwrites,
            apsWrites_found junk i param params hp, DeviceState.port_setValue hd hp]
          by_cases hid : id = (World.commands.apsTarget (junk i) param).1
          · subst hid
            rw [if_pos rfl, hp]
            simp [valueAfter]
          · rw [if_neg hid]
            simp [valueAfter, Ne.symm hid]

/-! ## 4. Steps -/

variable {s s' : WatchedDevice} {given : List Int32} {id : Int32} {p : PortState} {act : PortAction}

/-- The event of a call that changes a value. -/
def portSetEvent (d : DeviceState) (p : PortState) (v : Int32) : Event :=
  { type := .portSet, channel := .privateChannel, deviceId := d.id, portId := p.id,
    digital := p.digital, oldValue := p.value, newValue := v }

@[simp] theorem eventPort_portSetEvent (d : DeviceState) (p : PortState) (v : Int32) :
    eventPort (portSetEvent d p v) = portName d.id p.id := rfl

@[simp] theorem eventValue_portSetEvent (d : DeviceState) (p : PortState) (v : Int32) :
    eventValue (portSetEvent d p v) = portValue { p with value := v } := rfl

theorem after_setValue {v : Int32} (hv : p.value ≠ v) : s.after (s.device.setValue p v) =
    { device := (s.device.setValue p v).device,
      published := s.published ++ [portSetEvent s.device p v] } := by
  unfold after DeviceState.setValue
  rw [if_neg hv]
  rfl

/-- What the events show after one more. -/
theorem shown_after {v : Int32} (hk : s.device.Keyed) (hp : s.device.port id = some p)
    (hv : p.value ≠ v) (j : Int32) : (s.after (s.device.setValue p v)).shown j =
      if j = id then some (portValue { p with value := v }) else s.shown j := by
  rw [after_setValue hv]
  unfold shown
  rw [replay_snoc, eventPort_portSetEvent, eventValue_portSetEvent, DeviceState.setValue_id, hk hp]
  simp only [(portName_injective s.device.id).eq_iff]

/-- A call of `set_value` on the port with an id, if there is one. -/
theorem setPort_cases (s : WatchedDevice) (id : Int32) (value : PortState → Int32) :
    (s.setPort id (fun d p => d.setValue p (value p)) = s ∧
      changed s.device ((s.device.port id).map fun p => (id, value p)).toList = []) ∨
    ∃ p, s.device.port id = some p ∧ p.value ≠ value p ∧
      changed s.device ((s.device.port id).map fun p => (id, value p)).toList = [id] ∧
      s.setPort id (fun d p => d.setValue p (value p)) = s.after (s.device.setValue p (value p)) := by
  unfold setPort
  cases hp : s.device.port id with
  | none => exact Or.inl ⟨rfl, rfl⟩
  | some p =>
      by_cases hv : p.value = value p
      · refine Or.inl ⟨?_, by simp [changed, hp, hv]⟩
        show s.after (s.device.setValue p (value p)) = s
        rw [DeviceState.setValue_of_eq _ _ _ _ hv]
        simp [after]
      · exact Or.inr ⟨p, rfl, hv, by simp [changed, hp, hv], rfl⟩

/-- A setter's request either changes nothing or is one call that changes the value of a port. -/
theorem step_setter (hs : s.step act = .ok s') (ha : ∀ params junk, act ≠ .aps params junk) :
    (s' = s ∧ changed s.device (writes s.device act) = []) ∨
      ∃ id p v, s.device.port id = some p ∧ p.value ≠ v ∧
        changed s.device (writes s.device act) = [id] ∧ s' = s.after (s.device.setValue p v) := by
  cases act with
  | httpSetPort id doc =>
      cases hs
      simp only [DeviceState.httpSetPort_eq]
      rcases setPort_cases s id fun p => DeviceState.httpValue p doc with h | ⟨p, hp, hv, hc, h⟩
      · exact Or.inl h
      · exact Or.inr ⟨id, p, _, hp, hv, hc, h⟩
  | jsSetPortValue id value junk =>
      cases hs
      simp only [DeviceState.jsSetPortValue_eq]
      rcases setPort_cases s id fun _ => DeviceState.jsValue value junk with h | ⟨p, hp, hv, hc, h⟩
      · exact Or.inl h
      · exact Or.inr ⟨id, p, _, hp, hv, hc, h⟩
  | aps params junk => exact absurd rfl (ha params junk)

/-- A call that changes a value keeps what the events show; it keeps the chain where the port has
    the value of its last event. -/
theorem shows_after_iff {v : Int32} (hk : s.device.Keyed) (h : Shows s given)
    (hp : s.device.port id = some p) (hv : p.value ≠ v) :
    Shows (s.after (s.device.setValue p v)) (given ++ [id]) ↔
      ∀ u, s.announced id = some u → p.value = u := by
  have hchain : Chained eventPort Event.oldValue Event.newValue
      (s.after (s.device.setValue p v)).published ↔ ∀ u, s.announced id = some u → p.value = u := by
    rw [after_setValue hv, chained_snoc, eventPort_portSetEvent, hk hp]
    exact and_iff_right h.chained
  refine ⟨fun h' => hchain.mp h'.chained, fun hq => ⟨?_, hchain.mpr hq⟩⟩
  intro j q hq hj
  rw [shown_after hk hp hv]
  have hport : (s.after (s.device.setValue p v)).device.port j =
      if j = id then some { p with value := v } else s.device.port j :=
    DeviceState.port_setValue hk hp v false j
  rw [hport] at hq
  by_cases hid : j = id
  · rw [if_pos hid] at hq ⊢
    cases hq
    rfl
  · rw [if_neg hid] at hq ⊢
    rcases List.mem_append.mp hj with hj | hj
    · exact h.value hq hj
    · exact absurd (List.mem_singleton.mp hj) hid

/-! ## 5. Runs -/

/-- The ports that have been given a value: those whose value a request has changed. -/
def givenAfter (given : List Int32) (s : WatchedDevice) (act : PortAction) : List Int32 :=
  given ++ changed s.device (writes s.device act)

/-- The device with the ports that have been given a value. -/
def recorded : Machine (WatchedDevice × List Int32) PortAction Empty :=
  machine.track (fun _ _ => True) givenAfter

/-- An `aps` leaves every port that has been given a value with the value shown, and changes no
    other; a setter that changes the value of a port finds it with that of the port's last event. -/
def KeepsShown (s : WatchedDevice × List Int32) (act : PortAction) : Prop :=
  match act with
  | .aps params junk =>
      let l := apsWrites s.1.device junk 0 params
      ∀ id p, s.1.device.port id = some p →
        (id ∈ s.2 → portValue { p with value := valueAfter l id p.value } = portValue p) ∧
        (id ∈ changed s.1.device l → id ∈ s.2)
  | .httpSetPort _ _ | .jsSetPortValue _ _ _ =>
      ∀ id ∈ changed s.1.device (writes s.1.device act), ∀ p, s.1.device.port id = some p →
        ∀ u, s.1.announced id = some u → p.value = u

/-- The invariant: nothing is shown of a port that has not been given a value. -/
structure Recorded (s : WatchedDevice × List Int32) : Prop where
  keyed : s.1.device.Keyed
  shows : Shows s.1 s.2
  quiet : ∀ id, id ∉ s.2 → s.1.shown id = none

theorem keepsShown_setter (ha : ∀ params junk, act ≠ .aps params junk) :
    KeepsShown (s, given) act ↔ ∀ id ∈ changed s.device (writes s.device act), ∀ p,
      s.device.port id = some p → ∀ u, s.announced id = some u → p.value = u := by
  cases act with
  | httpSetPort | jsSetPortValue => exact Iff.rfl
  | aps params junk => exact absurd rfl (ha params junk)

/-- What a request does to what is shown. -/
structure RecordedStep (s : WatchedDevice) (given : List Int32) (act : PortAction)
    (s' : WatchedDevice) : Prop where
  keyed : s'.device.Keyed
  quiet : ∀ id, id ∉ givenAfter given s act → s'.shown id = none
  shows : Shows s' (givenAfter given s act) ↔ KeepsShown (s, given) act

theorem recordedStep_setter (hJ : Recorded (s, given)) (hs : s.step act = .ok s')
    (ha : ∀ params junk, act ≠ .aps params junk) : RecordedStep s given act s' := by
  rcases step_setter hs ha with ⟨rfl, hc⟩ | ⟨id, p, v, hp, hv, hc, rfl⟩
  · have hgiven : givenAfter given s' act = given := by rw [givenAfter, hc, List.append_nil]
    refine ⟨hJ.keyed, ?_, ?_⟩
    · rw [hgiven]
      exact hJ.quiet
    · rw [hgiven, keepsShown_setter ha, hc]
      exact iff_of_true hJ.shows fun id hid => by cases hid
  · have hgiven : givenAfter given s act = given ++ [id] := by rw [givenAfter, hc]
    have hk : s.device.Keyed := hJ.keyed
    refine ⟨hk.setValue hp v false, ?_, ?_⟩
    · intro j hj
      rw [hgiven, List.mem_append, not_or, List.mem_singleton] at hj
      rw [shown_after hk hp hv, if_neg hj.2]
      exact hJ.quiet j hj.1
    · rw [hgiven, shows_after_iff hk hJ.shows hp hv, keepsShown_setter ha, hc]
      constructor
      · intro h j hj q hq
        obtain rfl := List.mem_singleton.mp hj
        rw [hp] at hq
        cases hq
        exact h
      · intro h
        exact h id (List.mem_singleton.mpr rfl) p hp

theorem recordedStep_aps (hJ : Recorded (s, given)) (params : List Bytes)
    (junk : Nat → Int32 × Int32) : RecordedStep s given (.aps params junk)
      { s with device := (World.commands.apsLoop junk 0 params s.device).1 } := by
  have hk : s.device.Keyed := hJ.keyed
  have hid : (World.commands.apsLoop junk 0 params s.device).1.id = s.device.id := by
    rw [DeviceState.apsLoop_frame]
  have hshown : ∀ j, WatchedDevice.shown
      { s with device := (World.commands.apsLoop junk 0 params s.device).1 } j = s.shown j := by
    intro j
    show replay eventPort eventValue s.published (portName _ j) = _
    rw [hid]
    rfl
  refine ⟨hk.apsLoop junk 0 params, ?_, ?_, ?_⟩
  · intro j hj
    rw [givenAfter, List.mem_append, not_or] at hj
    rw [hshown]
    exact hJ.quiet j hj.1
  · intro h id p hp
    have hport := (port_apsLoop hk junk 0 params id).trans (congrArg _ hp)
    refine ⟨fun hid => ?_, fun hid => ?_⟩
    · have hv := h.value hport (List.mem_append_left _ hid)
      rw [hshown, hJ.shows.value hp hid] at hv
      exact (Option.some.inj hv).symm
    · by_contra hn
      have hv := h.value hport (List.mem_append_right _ hid)
      rw [hshown, hJ.quiet id hn] at hv
      cases hv
  · intro hq
    refine ⟨?_, hJ.shows.chained⟩
    intro id q hq' hid
    have hport := port_apsLoop hk junk 0 params id
    rw [hport] at hq'
    obtain ⟨p, hp, rfl⟩ := Option.map_eq_some_iff.mp hq'
    have hgiven : id ∈ given := by
      rcases List.mem_append.mp hid with hid | hid
      · exact hid
      · exact (hq id p hp).2 hid
    rw [hshown, hJ.shows.value hp hgiven]
    exact congrArg some ((hq id p hp).1 hgiven).symm

theorem recordedStep (hJ : Recorded (s, given)) (hs : s.step act = .ok s') :
    RecordedStep s given act s' := by
  cases act with
  | httpSetPort | jsSetPortValue => exact recordedStep_setter hJ hs (by simp)
  | aps params junk =>
      cases hs
      exact recordedStep_aps hJ params junk

theorem recorded_new (device : Device) : Recorded ({ device := DeviceState.new device }, []) where
  keyed := DeviceState.keyed_new device
  shows := ⟨fun _ hid => absurd hid List.not_mem_nil, chained_nil⟩
  quiet _ _ := rfl

/-- The events of a device show its ports throughout a run exactly when every request keeps what is
    shown. -/
theorem portEvents_exact {device : Device} {tr : List ((WatchedDevice × List Int32) × PortAction)}
    {r : WatchedDevice × List Int32}
    (hrun : recorded.Run ({ device := DeviceState.new device }, []) tr r) :
    Machine.States (fun r => Shows r.1 r.2) tr r ↔ Machine.Steps KeepsShown tr := by
  refine hrun.exact (J := Recorded) (recorded_new device) (fun _ h => h.shows) ?_ ?_
  · rintro ⟨s, given⟩ act ⟨s', given'⟩ hJ - hs hq
    obtain ⟨hs, rfl⟩ := Machine.track_step hs
    have hstep := recordedStep hJ hs
    exact ⟨hstep.keyed, hstep.shows.mpr hq, hstep.quiet⟩
  · rintro ⟨s, given⟩ act ⟨s', given'⟩ hJ - hs hq hP
    obtain ⟨hs, rfl⟩ := Machine.track_step hs
    exact hq ((recordedStep hJ hs).shows.mp hP)

/-! ## 6. In the server -/

section Server

variable {w w' : World} {a : Addr} {d : DeviceState} {x : Int32}

/-- A call through the registry is the setter's step on the device it finds. -/
theorem setRegistered_watched (call : DeviceState → PortState → SetEffect) (hx : w.find x = some a)
    (hd : w.heap a = some d) (hs : w.setRegistered x id call = .ok w') :
    w'.heap a = some ((WatchedDevice.mk d []).setPort id call).device ∧
      w'.events = w.events ++
        ((WatchedDevice.mk d []).setPort id call).published.map fun e => (none, e) := by
  unfold setPort
  cases hp : d.port id with
  | none =>
      rw [World.setRegistered_noPort hx hd hp] at hs
      cases hs
      simp [hd]
  | some p =>
      rw [World.setRegistered_port hx hd hp] at hs
      cases hs
      refine ⟨Function.update_self _ _ _, ?_⟩
      rw [World.events_applyEffect]
      rfl

/-- `aps` is the device's own step; of its events none is a `port_set`. -/
theorem aps_watched {env : Env} {k : ConnId} {name : Bytes} {params : List Bytes}
    (hdev : (w.conns k).device = some a) (hd : w.heap a = some d) (hp : params ≠ [])
    (hs : World.Command.aps.callback env w k (name :: params) = .ok (.done w')) :
    w'.heap a = some (World.commands.apsLoop env.junk 0 params d).1 ∧
      ∃ l, w'.events = w.events ++ l ∧ ∀ e ∈ l, e.2.type ≠ .portSet := by
  rw [World.callback_aps_eq env name hdev hd hp] at hs
  split at hs
  · cases hs
    exact ⟨Function.update_self _ _ _, [], (List.append_nil _).symm, fun e he => by cases he⟩
  · cases hc : World.close _ k with
    | error e =>
        rw [hc] at hs
        cases hs
    | ok w₁ =>
        rw [hc] at hs
        cases hs
        rcases World.close_cases hc with rfl | ⟨x, rfl⟩
        · exact ⟨Function.update_self _ _ _, [], (List.append_nil _).symm, fun e he => by cases he⟩
        · refine ⟨Function.update_self _ _ _, _, rfl, fun e he => ?_⟩
          obtain rfl := List.mem_singleton.mp he
          exact fun h => by cases h

end Server

/-! ## 7. A silent report -/

/-- The device reports the value of its port. -/
def report : List PortAction := [.aps [ascii "3:1"] fun _ => (0, 0)]

/-- A device with one port. -/
def meter : Device := { id := 5, specifications := { ports := (∅ : Ports).insert 3 { id := 3 } } }

instance (r : WatchedDevice × List Int32) (act : PortAction) : Decidable (recorded.enabled r act) :=
  .isTrue ⟨trivial, trivial⟩

theorem portEvents_exact_report : ∃ tr r,
    recorded.exec [] ({ device := DeviceState.new meter }, []) report = some (tr, r) ∧
      (Machine.States (fun r => Shows r.1 r.2) tr r ↔ Machine.Steps KeepsShown tr) := by
  obtain ⟨⟨tr, r⟩, he⟩ : ∃ r, recorded.exec [] ({ device := DeviceState.new meter }, []) report =
      some r := Option.isSome_iff_exists.mp (by decide)
  exact ⟨tr, r, he, portEvents_exact (Machine.Run.start.exec he)⟩

/-- No event shows the value. -/
theorem not_shows_report :
    ¬ ∀ (device : Device) (tr : List ((WatchedDevice × List Int32) × PortAction))
      (r : WatchedDevice × List Int32),
      recorded.Run ({ device := DeviceState.new device }, []) tr r →
        Machine.States (fun r => Shows r.1 r.2) tr r := by
  intro h
  obtain ⟨⟨tr, r⟩, he⟩ : ∃ r, recorded.exec [] ({ device := DeviceState.new meter }, []) report =
      some r := Option.isSome_iff_exists.mp (by decide)
  have hfinal : (recorded.exec [] ({ device := DeviceState.new meter }, []) report).all (fun r =>
      r.2.1.published = [] ∧ r.2.2 = [3] ∧ (r.2.1.device.port 3).isSome) = true := by decide
  rw [he] at hfinal
  obtain ⟨hlog, hgiven, hport⟩ := of_decide_eq_true hfinal
  obtain ⟨p, hp⟩ := Option.isSome_iff_exists.mp hport
  have hmem : (3 : Int32) ∈ r.2 := by rw [hgiven]; exact List.mem_singleton.mpr rfl
  have hshown := (h meter tr r (Machine.Run.start.exec he)).2.value hp hmem
  rw [shown, hlog] at hshown
  cases hshown

end WatchedDevice

end Domoio
