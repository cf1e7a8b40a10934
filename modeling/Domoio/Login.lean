import Domoio.Delivery
import Domoio.PortEvents

/-
  File:      Domoio/Login.lean
  Subject:   What a connection can do before it has logged in.

  Device signals are gated: only `login` gives a connection a slot. Commands are not: no handler
  asks `is_logged_in`, so an `aps` writes the ports of the session's device at once. `gated_exact`
  says that a run keeps the gate exactly when every `aps` from before the login only repeats the
  values the ports have.
-/

namespace Domoio

open Lib

/-- The value of a port of the device. -/
def DeviceState.valueOf (d : DeviceState) (id : Int32) : Option Int32 :=
  (d.port id).map PortState.value

namespace World

/-! ## 1. `aps` on a device -/

/-- Every value an `aps` gives a port is the one the port has. -/
def Repeats (d : DeviceState) (junk : Nat → Int32 × Int32) (i : Nat) (params : List Bytes) : Prop :=
  ∀ t ∈ WatchedDevice.apsWrites d junk i params, d.valueOf t.1 = some t.2

/-- A parameter of an `aps` asks for a value that its port does not have. -/
def AsksChange (d : DeviceState) (junk : Nat → Int32 × Int32) (params : List Bytes) : Prop :=
  ∃ q ∈ params.zipIdx, ∃ p, d.port (commands.apsTarget (junk q.2) q.1).1 = some p ∧
    p.value ≠ (commands.apsTarget (junk q.2) q.1).2

section Aps

variable {d : DeviceState} {junk : Nat → Int32 × Int32}

theorem valueOf_eq {id : Int32} {p : PortState} (hp : d.port id = some p) :
    d.valueOf id = some p.value := by rw [DeviceState.valueOf, hp, Option.map_some]

/-- An `aps` that repeats values leaves the device as it is, however far it has come. -/
theorem apsLoop_repeats {i : Nat} {params : List Bytes} (h : Repeats d junk i params) (n : Nat) :
    (commands.apsLoop junk i (params.take n) d).1 = d := by
  induction params generalizing i n with
  | nil =>
      rw [List.take_nil]
      rfl
  | cons param params ih =>
      cases n with
      | zero => rfl
      | succ n =>
          rw [List.take_succ_cons]
          cases hp : d.port (commands.apsTarget (junk i) param).1 with
          | none => rw [DeviceState.apsLoop_missing junk i param _ hp]
          | some p =>
              rw [Repeats, WatchedDevice.apsWrites_found junk i param params hp] at h
              obtain ⟨hfirst, hrest⟩ := List.forall_mem_cons.mp h
              rw [valueOf_eq hp, Option.some.injEq] at hfirst
              rw [DeviceState.apsLoop_found junk i param _ hp,
                DeviceState.setValue_of_eq d p _ true hfirst]
              exact ih hrest n

/-- An `aps` that shows the values of the device throughout repeats them. -/
theorem repeats_of_passing (hd : d.Keyed) {i : Nat} {params : List Bytes}
    (h : ∀ n id, (commands.apsLoop junk i (params.take n) d).1.valueOf id = d.valueOf id) :
    Repeats d junk i params := by
  induction params generalizing i with
  | nil =>
      intro t ht
      cases ht
  | cons param params ih =>
      cases hp : d.port (commands.apsTarget (junk i) param).1 with
      | none =>
          rw [Repeats, WatchedDevice.apsWrites_missing junk i param params hp]
          intro t ht
          cases ht
      | some p =>
          -- one parameter: the port has the value already
          have hfirst : p.value = (commands.apsTarget (junk i) param).2 := by
            have hone := h 1 (commands.apsTarget (junk i) param).1
            rw [List.take_succ_cons, List.take_zero, DeviceState.apsLoop_found junk i param [] hp,
              valueOf_eq hp] at hone
            have hset : (d.setValue p (commands.apsTarget (junk i) param).2 true).device.valueOf
                (commands.apsTarget (junk i) param).1 = some (commands.apsTarget (junk i) param).2 := by
              rw [DeviceState.valueOf, DeviceState.port_setValue hd hp, if_pos rfl]
              rfl
            exact Option.some.inj (hone.symm.trans hset)
          have hrest : Repeats d junk (i + 1) params := by
            refine ih fun n id => ?_
            have hnext := h (n + 1) id
            rw [List.take_succ_cons, DeviceState.apsLoop_found junk i param _ hp,
              DeviceState.setValue_of_eq d p _ true hfirst] at hnext
            exact hnext
          rw [Repeats, WatchedDevice.apsWrites_found junk i param params hp]
          exact List.forall_mem_cons.mpr ⟨(valueOf_eq hp).trans (congrArg some hfirst), hrest⟩

/-- An `aps` that repeats values gets through with a request for another value nowhere. -/
theorem apsLoop_refused (hd : d.Keyed) {params : List Bytes} (h : Repeats d junk 0 params)
    (hask : AsksChange d junk params) : (commands.apsLoop junk 0 params d).2 = false := by
  obtain ⟨q, hq, p, hp, hv⟩ := hask
  by_contra hok
  rw [Bool.not_eq_false, DeviceState.apsLoop_snd hd, DeviceState.namesPorts, List.all_eq_true] at hok
  -- no parameter stops the loop, so the request for another value is among the writes
  have hwrites : WatchedDevice.apsWrites d junk 0 params =
      params.zipIdx.map fun q => commands.apsTarget (junk q.2) q.1 := by
    refine List.takeWhile_eq_self_iff.mpr fun t ht => ?_
    obtain ⟨r, hr, rfl⟩ := List.mem_map.mp ht
    exact hok r hr
  have hsame := h (commands.apsTarget (junk q.2) q.1) (by
    rw [hwrites]
    exact List.mem_map_of_mem hq)
  rw [valueOf_eq hp, Option.some.injEq] at hsame
  exact hv hsame

end Aps

/-! ## 2. What a request does to the ports -/

/-- The value of a port of the device state at `a`. -/
def valueAt (w : World) (a : Addr) (id : Int32) : Option Int32 :=
  (w.heap a).bind fun d => d.valueOf id

/-- Every port of the devices there are keeps its value. -/
def KeepsPorts (w w' : World) : Prop :=
  ∀ a id v, w.valueAt a id = some v → w'.valueAt a id = some v

/-- The device state and the parameters with which an `aps` in this chunk is handled. -/
def apsRequest (w : World) (k : ConnId) (chunk : Bytes) : Option (DeviceState × List Bytes) :=
  match (w.chunkRequest k chunk).bind requestCommand, (w.conns k).device.bind w.heap with
  | some (.aps, params), some d => some (d, params)
  | _, _ => none

variable {w w' w'' : World} {k j : ConnId} {env : Env} {a : Addr} {act : Action}

theorem keepsPorts_of_heap (h : w'.heap = w.heap) : KeepsPorts w w' := by
  intro a id v hv
  rw [valueAt, h]
  exact hv

/-- A state that is written back with the values it had. -/
theorem keepsPorts_store {d d' : DeviceState} (hd : w.heap a = some d)
    (hsame : ∀ id, d'.valueOf id = d.valueOf id) (hw : w'.heap = (w.store a d').heap) :
    KeepsPorts w w' := by
  intro b id v hv
  rw [valueAt, hw]
  by_cases hb : b = a
  · subst hb
    rw [valueAt, hd] at hv
    simpa [store, hsame] using hv
  · have hother : (w.store a d').heap b = w.heap b := Function.update_of_ne hb _ _
    rw [hother]
    exact hv

theorem close_frame (hc : w.close k = .ok w') :
    w'.heap = w.heap ∧ w'.conns k = { w.conns k with socketOpen := false } := by
  rcases close_cases hc with rfl | ⟨x, rfl⟩
  · exact ⟨rfl, updConn_self w k _⟩
  · refine ⟨rfl, ?_⟩
    show (w.updConn k fun c => { c with socketOpen := false }).conns k = _
    exact updConn_self w k _

/-- A session that starts: its state is at an address that had none. -/
theorem keepsPorts_opened (h : w.WF) (env : Env) (k : ConnId) (d : Device) :
    KeepsPorts w (opened env w k d) := by
  have hnone : w.heap w.nextAddr = none :=
    Option.map_eq_none_iff.mp h.sessions.ident_nextAddr
  intro b id v hv
  have hb : b ≠ w.nextAddr := by
    intro heq
    subst heq
    simp [valueAt, hnone] at hv
  simpa [valueAt, opened, publish, updConn, connect, hb] using hv

/-- Every command but an `aps` with parameters leaves the values alone. -/
theorem keepsPorts_performed (h : w.WF) {params : List Bytes} {cmd : Command} {closes : Bool}
    (haps : cmd = .aps → params = []) (hdone : Performed env w k params cmd w' closes) :
    KeepsPorts w w' := by
  cases hdone with
  | opened => exact keepsPorts_opened h env k _
  | @welcome a d _ _ hh =>
      have hsame : ∀ id, (withSlot d k).valueOf id = d.valueOf id := fun _ => rfl
      exact keepsPorts_store hh hsame rfl
  | ports hp | unknownPort hp => exact absurd (haps rfl) hp
  | notFound | badLogin | noPorts | exit | set => exact keepsPorts_of_heap rfl

/-- A chunk that holds no `aps` for a device leaves the values alone. -/
theorem keepsPorts_read {chunk : Bytes} (h : w.WF) (ho : (w.conns k).isOpen = true)
    (haps : w.apsRequest k chunk = none) (hs : w.handleRead env k chunk = .ok w') :
    KeepsPorts w w' := by
  obtain ⟨str, hr, hreturned⟩ := read_returned h ho hs
  cases hreturned with
  | dropped _ hclose => exact keepsPorts_of_heap (close_frame hclose).1
  | unknown _ hw => exact keepsPorts_of_heap (hw ▸ rfl)
  | @performed cmd params v closes hc _ hdone hend =>
      have hv : KeepsPorts (w.logged k str) v := by
        refine keepsPorts_performed (h.logged k str) (fun hcmd => ?_) hdone
        -- an `aps` with parameters follows the device pointer to a state
        subst hcmd
        cases hdone with
        | noPorts hp => exact hp
        | @ports a d _ hd hh | @unknownPort a d _ hd hh =>
            rw [logged_self] at hd
            have hd' : (w.conns k).device = some a := hd
            have hh' : w.heap a = some d := hh
            simp [apsRequest, hr, hc, hd', hh'] at haps
      cases closes with
      | false => exact hend ▸ hv
      | true =>
          intro a id x hx
          exact keepsPorts_of_heap (close_frame hend).1 a id x (hv a id x hx)

/-- An `aps` for a device. -/
theorem read_aps {chunk : Bytes} {d : DeviceState} {params : List Bytes} (h : w.WF)
    (ho : (w.conns k).isOpen = true) (haps : w.apsRequest k chunk = some (d, params))
    (hs : w.handleRead env k chunk = .ok w') :
    ∃ a, w.heap a = some d ∧
      w'.heap = (w.store a (commands.apsLoop env.junk 0 params d).1).heap ∧
      ((commands.apsLoop env.junk 0 params d).2 = false →
        (w'.conns k).sent = (w.conns k).sent ++
          [((w.conns k).sessionStarted, ascii "400 Bad Request")] ∧ (w'.conns k).isOpen = false) := by
  obtain ⟨str, hr, hreturned⟩ := read_returned h ho hs
  unfold apsRequest at haps
  rw [hr, Option.bind_some] at haps
  split at haps
  case h_2 => cases haps
  case h_1 hcommand hstate =>
    cases haps
    obtain ⟨a, hd, hh⟩ := Option.bind_eq_some_iff.mp hstate
    refine ⟨a, hh, ?_⟩
    cases hreturned with
    | dropped hm =>
        obtain ⟨cmd, params', hc, hlt⟩ := hm
        rw [hcommand] at hc
        cases hc
        exact absurd hlt (Nat.not_lt_zero _)
    | unknown hc =>
        rw [hcommand] at hc
        cases hc
    | performed hc _ hdone hend =>
        rw [hcommand] at hc
        cases hc
        cases hdone with
        | noPorts hp =>
            subst hp
            cases hend
            have hsame : w.heap = (w.store a d).heap := by
              simp [store, ← hh]
            refine ⟨hsame, fun hfalse => ?_⟩
            cases hfalse
        | ports _ hd' hh' hok =>
            rw [logged_self, hd] at hd'
            cases hd'
            cases hh.symm.trans hh'
            cases hend
            refine ⟨rfl, fun hfalse => ?_⟩
            rw [hok] at hfalse
            cases hfalse
        | unknownPort _ hd' hh' =>
            rw [logged_self, hd] at hd'
            cases hd'
            cases hh.symm.trans hh'
            obtain ⟨hheap, hconn⟩ := close_frame hend
            refine ⟨hheap, fun _ => ⟨?_, ?_⟩⟩
            · rw [hconn]
              simp [logged, store]
            · rw [hconn]
              rfl

/-! ## 3. The gate -/

/-- The connection an action is of. -/
def Action.conn : Action → Option ConnId
  | .read k _ _ | .readError k _ | .written k => some k
  | .accept | .acceptError | .httpSetPort _ _ _ | .jsSetPortValue _ _ _ _ => none

/-- The device server, with the history whether connection `k` has logged in. -/
def gate (k : ConnId) : Machine (World × Bool) Action Fault :=
  machine.track (fun _ _ => True) fun passed w act => passed || isGoodLogin k w act

instance (k : ConnId) (s : World × Bool) (act : Action) : Decidable ((gate k).enabled s act) :=
  inferInstanceAs (Decidable (machine.enabled s.1 act ∧ True))

/-- An action that connection `k` is kept out of: it is forwarded no device signal; through it no
    port is given another value, not even while the parameters of an `aps` are gone through; and an
    `aps` that asks for another value is refused. -/
structure KeptOut (k : ConnId) (w : World) (act : Action) (w' : World) : Prop where
  signals : setMessages (w'.conns k) = setMessages (w.conns k)
  ports : act.conn = some k → KeepsPorts w w'
  passing : ∀ {chunk env d params}, act = .read k chunk env →
    w.apsRequest k chunk = some (d, params) → ∀ n id,
      (commands.apsLoop env.junk 0 (params.take n) d).1.valueOf id = d.valueOf id
  refused : ∀ {chunk env d params}, act = .read k chunk env →
    w.apsRequest k chunk = some (d, params) → AsksChange d env.junk params →
      (w'.conns k).sent = (w.conns k).sent ++
        [((w.conns k).sessionStarted, ascii "400 Bad Request")] ∧ (w'.conns k).isOpen = false

/-- Until connection `k` has logged in it is kept out. -/
def Gated (k : ConnId) (s : World × Bool) (act : Action) : Prop :=
  s.2 = false → ∀ w', s.1.step act = .ok w' → KeptOut k s.1 act w'

/-- Until connection `k` has logged in, an `aps` on it only repeats values. -/
def Waits (k : ConnId) (s : World × Bool) (act : Action) : Prop :=
  s.2 = false → ∀ chunk env d params, act = .read k chunk env →
    s.1.apsRequest k chunk = some (d, params) → Repeats d env.junk 0 params

/-- The invariant: `logged_in` says what has happened, and no device state has a slot that leads to
    the connection before. -/
structure Shut (k : ConnId) (s : World × Bool) : Prop where
  wf : s.1.WF
  loggedIn : (s.1.conns k).loggedIn = s.2
  slots : s.2 = false → ∀ a, slotsOf s.1 k a = 0

/-- What a step does to the wiring of a connection. -/
structure ShutStep (k : ConnId) (w : World) (passed : Bool) (act : Action) (w' : World) : Prop where
  loggedIn : (w'.conns k).loggedIn = (passed || isGoodLogin k w act)
  slots : (passed || isGoodLogin k w act) = false → ∀ a, slotsOf w' k a = 0
  messages : passed = false → setMessages (w'.conns k) = setMessages (w.conns k)

section Step

variable {passed : Bool}

theorem shutStep_undisturbed (hJ : Shut k (w, passed)) (hu : Undisturbed w w')
    (hg : isGoodLogin k w act = false) : ShutStep k w passed act w' where
  loggedIn := by
    rw [hu.loggedIn, hg, Bool.or_false]
    exact hJ.loggedIn
  slots hp a := by
    rw [hg, Bool.or_false] at hp
    rw [hu.slots]
    exact hJ.slots hp a
  messages _ := hu.messages k

/-- A call on a port: without slots it sends nothing. -/
theorem shutStep_call (hJ : Shut k (w, passed)) {x id : Int32} {value : PortState → Int32}
    (hcall : portCall act = some (x, id, value)) (hs : w.step act = .ok w') :
    ShutStep k w passed act w' := by
  have hg : isGoodLogin k w act = false := isGoodLogin_portCall hcall
  rw [step_portCall hcall] at hs
  cases hx : w.find x with
  | none =>
      simp only [setRegistered, hx] at hs
      cases hs
      exact shutStep_undisturbed hJ (Undisturbed.refl w) hg
  | some a =>
      obtain ⟨d, hh, -⟩ := hJ.wf.find hx
      obtain ⟨hm, hl, hslots⟩ := setRegistered_messages hJ.wf hx hh hs k
      refine ⟨?_, fun hp b => ?_, fun hp => ?_⟩
      · rw [hl, hg, Bool.or_false]
        exact hJ.loggedIn
      · rw [hg, Bool.or_false] at hp
        rw [hslots]
        exact hJ.slots hp b
      · have hnone : slotsOf w k a = 0 := hJ.slots hp a
        rw [hm, hnone]
        cases w.changedPort x id value <;> simp

theorem shutStep (hJ : Shut k (w, passed)) (he : w.enabled act) (hs : w.step act = .ok w') :
    ShutStep k w passed act w' := by
  cases hcall : portCall act with
  | some call =>
      obtain ⟨x, id, value⟩ := call
      exact shutStep_call hJ hcall hs
  | none =>
      by_cases hg : ∃ j, isGoodLogin j w act = true
      · obtain ⟨j, hj⟩ := hg
        obtain ⟨chunk, env, rfl⟩ := isGoodLogin_read hj
        obtain ⟨a, -, hm, hl, hslots⟩ := goodLogin_step hJ.wf he.1 hj hs k
        have hkj : isGoodLogin k w (.read j chunk env) = decide (k = j) := by
          by_cases hk : k = j
          · rw [hk, hj, decide_eq_true rfl]
          · rw [isGoodLogin_ne (Ne.symm hk), decide_eq_false hk]
        refine ⟨?_, fun hp b => ?_, fun _ => hm⟩
        · rw [hl, hkj]
          exact congrArg (· || decide (k = j)) hJ.loggedIn
        · rw [hkj, Bool.or_eq_false_iff, decide_eq_false_iff_not] at hp
          have h0 : slotsOf w k b = 0 := hJ.slots hp.1 b
          simp [hslots, h0, hp.2]
      · push Not at hg
        have hg' : ∀ j, isGoodLogin j w act = false := fun j => by simpa using hg j
        exact shutStep_undisturbed hJ (undisturbed_step hJ.wf he hs hcall hg') (hg' k)

/-- An action of the connection changes no value where its `aps` only repeats values. -/
theorem keepsPorts_step (h : w.WF) (he : w.enabled act) (hk : act.conn = some k)
    (hrep : ∀ chunk env d params, act = .read k chunk env → w.apsRequest k chunk = some (d, params) →
      Repeats d env.junk 0 params) (hs : w.step act = .ok w') : KeepsPorts w w' := by
  cases act with
  | read j chunk env =>
      cases hk
      cases haps : w.apsRequest k chunk with
      | none => exact keepsPorts_read h he.1 haps hs
      | some r =>
          obtain ⟨d, params⟩ := r
          obtain ⟨a, hh, hheap, -⟩ := read_aps h he.1 haps hs
          have hsame := apsLoop_repeats (hrep chunk env d params rfl haps) params.length
          rw [List.take_length] at hsame
          rw [hsame] at hheap
          exact keepsPorts_store hh (fun _ => rfl) hheap
  | readError | written =>
      cases hs
      exact keepsPorts_of_heap rfl
  | accept | acceptError | httpSetPort | jsSetPortValue => cases hk

/-- A step keeps the gate exactly when an `aps` in it only repeats values. -/
theorem gated_iff (hJ : Shut k (w, passed)) (he : w.enabled act) (hs : w.step act = .ok w') :
    Gated k (w, passed) act ↔ Waits k (w, passed) act := by
  constructor
  · rintro hgated hp chunk env d params rfl haps
    obtain ⟨a, hh, -⟩ := read_aps hJ.wf he.1 haps hs
    exact repeats_of_passing (hJ.wf.keyed hh) ((hgated hp w' hs).passing rfl haps)
  · intro hwaits hp w₁ hs₁
    refine ⟨(shutStep hJ he hs₁).messages hp, fun hk => keepsPorts_step hJ.wf he hk (hwaits hp) hs₁,
      ?_, ?_⟩
    · rintro chunk env d params rfl haps n id
      rw [apsLoop_repeats (hwaits hp chunk env d params rfl haps) n]
    · rintro chunk env d params rfl haps hask
      obtain ⟨a, hh, -, hrefused⟩ := read_aps hJ.wf he.1 haps hs₁
      exact hrefused (apsLoop_refused (hJ.wf.keyed hh) (hwaits hp chunk env d params rfl haps) hask)

end Step

/-- The devices the server starts with have no slots. -/
theorem slotsOf_loadVirtualDevices (devices : List Device) (k : ConnId) :
    ∀ a, slotsOf (loadVirtualDevices devices) k a = 0 := by
  refine loadVirtualDevices_induction (P := fun w => ∀ a, slotsOf w k a = 0) (fun _ => rfl) ?_ devices
  intro w d _ hw a
  by_cases ha : a = w.nextAddr
  · simp [slotsOf, World.connect, ha, DeviceState.new]
  · have hother : (w.connect d).1.heap a = w.heap a := Function.update_of_ne ha _ _
    rw [slotsOf, hother]
    exact hw a

theorem shut_loadVirtualDevices (devices : List Device) (k : ConnId) :
    Shut k (loadVirtualDevices devices, false) where
  wf := wf_loadVirtualDevices devices
  loggedIn := by
    obtain ⟨hconns, -⟩ := loadVirtualDevices_frame devices
    show ((loadVirtualDevices devices).conns k).loggedIn = false
    rw [hconns k]
  slots _ a := slotsOf_loadVirtualDevices devices k a

/-- A run keeps the gate of connection `k` throughout exactly when every `aps` on it from before its
    login only repeats values. -/
theorem gated_exact {devices : List Device} {k : ConnId} {tr : List ((World × Bool) × Action)}
    {s : World × Bool} (hrun : (gate k).Run (loadVirtualDevices devices, false) tr s) :
    Machine.Steps (Gated k) tr ↔ Machine.Steps (Waits k) tr := by
  have hsteps : Machine.Steps (fun s act => Gated k s act ↔ Waits k s act) tr := by
    refine hrun.steps (J := Shut k) (shut_loadVirtualDevices devices k) ?_
    rintro ⟨w, passed⟩ act ⟨w', passed'⟩ hJ ⟨he, -⟩ hs
    obtain ⟨hs, hpassed⟩ := Machine.track_step hs
    have hst := shutStep hJ he hs
    rw [show passed' = (passed || isGoodLogin k w act) from hpassed]
    exact ⟨⟨(step_change hJ.wf he hs).wf, hst.loggedIn, hst.slots⟩, gated_iff hJ he hs⟩
  exact ⟨fun h p hp => (hsteps p hp).mp (h p hp), fun h p hp => (hsteps p hp).mpr (h p hp)⟩

/-- A device sends a port's value without a login. -/
def earlyAps : List Action :=
  [.accept, .read 0 (ascii "create_session 5" ++ [0]) (answering [lamp]),
    .read 0 (hexEncode (ascii "aps 3:1") ++ [0]) (answering [lamp])]

theorem gated_exact_earlyAps : ∃ tr s,
    (gate 0).exec [] (loadVirtualDevices [], false) earlyAps = some (tr, s) ∧
      (Machine.Steps (Gated 0) tr ↔ Machine.Steps (Waits 0) tr) := by
  obtain ⟨⟨tr, s⟩, he⟩ : ∃ r, (gate 0).exec [] (loadVirtualDevices [], false) earlyAps = some r :=
    Option.isSome_iff_exists.mp (by decide)
  exact ⟨tr, s, he, gated_exact (Machine.Run.start.exec he)⟩

/-- Its port has the value afterwards. -/
theorem not_gated_earlyAps :
    ¬ ∀ (devices : List Device) (k : ConnId) (tr : List ((World × Bool) × Action))
        (s : World × Bool), (gate k).Run (loadVirtualDevices devices, false) tr s →
        Machine.Steps (Gated k) tr := by
  intro h
  obtain ⟨⟨tr, s⟩, he⟩ : ∃ r, (gate 0).exec [] (loadVirtualDevices [], false) earlyAps = some r :=
    Option.isSome_iff_exists.mp (by decide)
  have hfinal : ((gate 0).exec [] (loadVirtualDevices [], false) earlyAps).all (fun r =>
      r.1.any fun p => p.1.2 = false ∧ p.2.conn = some 0 ∧ p.1.1.valueAt 0 3 = some (-1) ∧
        (p.1.1.step p.2).toOption.map (fun w' => w'.valueAt 0 3) = some (some 1)) = true := by decide
  rw [he, Option.all_some, List.any_eq_true] at hfinal
  obtain ⟨⟨⟨w, passed⟩, act⟩, hmem, hbad⟩ := hfinal
  obtain ⟨hpassed, hconn, hbefore, hafter⟩ := of_decide_eq_true hbad
  obtain ⟨w', hw', hvalue⟩ := Option.map_eq_some_iff.mp hafter
  have hs : w.step act = .ok w' := by
    cases hstep : w.step act with
    | error e =>
        rw [hstep] at hw'
        cases hw'
    | ok w₁ =>
        rw [hstep] at hw'
        cases hw'
        rfl
  have hkept := (h [] 0 tr s (Machine.Run.start.exec he) _ hmem hpassed w' hs).ports hconn
  have hkeeps : w'.valueAt 0 3 = some (-1) := hkept 0 3 (-1) hbefore
  rw [hvalue] at hkeeps
  exact absurd hkeeps (by decide)

end World

end Domoio
