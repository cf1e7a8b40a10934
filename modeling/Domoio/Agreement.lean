import Domoio.Simulation

/-
  File:      Domoio/Agreement.lean
  Subject:   Registry and sessions: when the registry of live devices tells the truth.

  `World.Agreement` is what `create_session`, `~DeviceConnection` and the `connected` flag of the
  device JSON rely on. `agreement_exact` says which runs keep it: those in which no session is taken
  over or left behind, and no connection ends in a network device's session. For the second the code
  has no answer: the destructor that would remove the device runs on no path that ends a connection.
-/

namespace Domoio

open Lib

namespace World

/-! ## 1. The agreement -/

/-- The device state of the session an open connection has started. -/
def sessionState (w : World) (k : ConnId) : Option DeviceState :=
  if (w.conns k).isOpen && (w.conns k).sessionStarted then (w.conns k).device.bind w.heap else none

/-- Connection `k` is open and its session is started for device `x`. -/
def HoldsSession (w : World) (k : ConnId) (x : Int32) : Prop :=
  ∃ d, w.sessionState k = some d ∧ d.id = x

/-- The same, and the device is a network device. -/
def HoldsNetworkSession (w : World) (k : ConnId) (x : Int32) : Prop :=
  ∃ d, w.sessionState k = some d ∧ d.id = x ∧ d.isNetworkDevice = true

structure Agreement (w : World) : Prop where
  /-- A started session's device pointer is the registry's entry. -/
  pointer : ∀ {k}, (w.conns k).isOpen = true → (w.conns k).sessionStarted = true →
    ∃ x, w.HoldsSession k x ∧ (w.conns k).device = w.find x
  /-- No two connections hold a session for one device. -/
  unique : ∀ {k j x}, w.HoldsSession k x → w.HoldsSession j x → k = j
  /-- A network device is registered only while a connection holds a session for it. -/
  held : ∀ {x a d}, w.find x = some a → w.heap a = some d → d.isNetworkDevice = true →
    ∃ k, w.HoldsSession k x

/-- The registry as the models' JSON callbacks read it. -/
def registry (w : World) : Registry := fun x => (w.find x).bind w.heap

variable {w : World} {k : ConnId} {x : Int32}

theorem session_eq (w : World) (k : ConnId) :
    w.sessions.session k = (w.sessionState k).map identOf := by
  unfold Sessions.session sessionState
  show (if (w.conns k).isOpen && (w.conns k).sessionStarted then _ else _) = _
  split
  · show (w.conns k).device.bind (fun a => (w.heap a).map identOf) = _
    cases (w.conns k).device <;> rfl
  · rfl

theorem holdsSession_iff : w.HoldsSession k x ↔ ∃ v, w.sessions.session k = some (x, v) := by
  rw [session_eq]
  constructor
  · intro h
    rcases h with ⟨d, hd, rfl⟩
    exact ⟨d.isVirtual, by rw [hd]; rfl⟩
  · intro h
    rcases h with ⟨v, hv⟩
    obtain ⟨d, hd, hid⟩ := Option.map_eq_some_iff.mp hv
    exact ⟨d, hd, congrArg Prod.fst hid⟩

theorem holdsNetworkSession_iff :
    w.HoldsNetworkSession k x ↔ w.sessions.session k = some (x, false) := by
  rw [session_eq]
  constructor
  · intro h
    rcases h with ⟨d, hd, rfl, hnet⟩
    have hv : d.isVirtual = false := by simpa [DeviceState.isNetworkDevice] using hnet
    rw [hd, Option.map_some, identOf, hv]
  · intro hs
    obtain ⟨d, hd, hid⟩ := Option.map_eq_some_iff.mp hs
    have hv : d.isVirtual = false := congrArg Prod.snd hid
    exact ⟨d, hd, congrArg Prod.fst hid, by simp [DeviceState.isNetworkDevice, hv]⟩

/-- The agreement is the session model's. -/
theorem agreement_iff (h : w.WF) : w.Agreement ↔ w.sessions.Agreement := by
  constructor
  · intro ha
    refine ⟨fun {k x v} hs => ?_, fun {k j x v v'} hk hj => ?_, fun {x a} hr hi => ?_⟩
    · obtain ⟨ho, hst, -⟩ := Sessions.session_eq_some.mp hs
      obtain ⟨y, hy, hp⟩ := ha.pointer (k := k) ho hst
      have hxy : x = y := by
        obtain ⟨u, hu⟩ := holdsSession_iff.mp hy
        rw [hs] at hu
        cases hu
        rfl
      rw [hxy]
      exact hp
    · exact ha.unique (holdsSession_iff.mpr ⟨v, hk⟩) (holdsSession_iff.mpr ⟨v', hj⟩)
    · obtain ⟨d, hh, hid⟩ := Option.map_eq_some_iff.mp hi
      have hnet : d.isNetworkDevice = true := by
        have hv : d.isVirtual = false := congrArg Prod.snd hid
        simp [DeviceState.isNetworkDevice, hv]
      obtain ⟨k, hk⟩ := ha.held hr hh hnet
      obtain ⟨v, hv⟩ := holdsSession_iff.mp hk
      exact ⟨k, v, hv⟩
  · intro ha
    refine ⟨fun {k} ho hs => ?_, fun {k j x} hk hj => ?_, fun {x a d} hr hh hnet => ?_⟩
    · obtain ⟨⟨x, v⟩, hv⟩ := h.sessions.session ho hs
      exact ⟨x, holdsSession_iff.mpr ⟨v, hv⟩, ha.pointer hv⟩
    · obtain ⟨v, hv⟩ := holdsSession_iff.mp hk
      obtain ⟨u, hu⟩ := holdsSession_iff.mp hj
      exact ha.unique hv hu
    · have hid : d.id = x := by
        obtain ⟨e, he, hid⟩ := h.find hr
        rw [hh] at he
        cases he
        exact hid
      have hv : d.isVirtual = false := by simpa [DeviceState.isNetworkDevice] using hnet
      have hi : w.sessions.ident a = some (x, false) := by
        simp [sessions, hh, identOf, hid, hv]
      obtain ⟨k, v, hk⟩ := ha.held hr hi
      exact ⟨k, holdsSession_iff.mpr ⟨v, hk⟩⟩

/-- Under the agreement the `connected` flag of a network device's JSON tells the truth. -/
theorem Agreement.connected (ha : w.Agreement)
    (hnet : ∀ d, w.registry x = some d → d.isNetworkDevice = true) :
    (w.registry x).isSome = true ↔ ∃ k, w.HoldsSession k x := by
  constructor
  · intro hx
    obtain ⟨d, hd⟩ := Option.isSome_iff_exists.mp hx
    obtain ⟨a, hr, hh⟩ := Option.bind_eq_some_iff.mp hd
    exact ha.held hr hh (hnet d hd)
  · intro h
    rcases h with ⟨k, hk⟩
    obtain ⟨v, hv⟩ := holdsSession_iff.mp hk
    obtain ⟨ho, hs, a, hd, hi⟩ := Sessions.session_eq_some.mp hv
    obtain ⟨y, hy, hp⟩ := ha.pointer (k := k) ho hs
    obtain ⟨u, hu⟩ := holdsSession_iff.mp hy
    rw [hv] at hu
    cases hu
    have hr : w.find x = some a := hp.symm.trans hd
    obtain ⟨d, hh, -⟩ := Option.map_eq_some_iff.mp hi
    simp [registry, hr, hh]

/-- The server starts in agreement: only virtual devices are registered. -/
theorem agreement_loadVirtualDevices (devices : List Device) :
    (loadVirtualDevices devices).Agreement := by
  obtain ⟨hconns, -, hvirtual⟩ := loadVirtualDevices_frame devices
  have hclosed : ∀ k, ((loadVirtualDevices devices).conns k).isOpen = false := by
    intro k
    rw [hconns k]
    rfl
  refine ⟨fun {k} ho => ?_, fun {k j x} hk => ?_, fun {x a d} _ hh hnet => ?_⟩
  · rw [hclosed k] at ho
    cases ho
  · obtain ⟨d, hd, -⟩ := hk
    simp [sessionState, hclosed k] at hd
  · rw [DeviceState.isNetworkDevice, hvirtual a d hh] at hnet
    cases hnet

/-! ## 2. Runs -/

/-- A step that keeps the agreement. A `create_session` that succeeds is for a device no other
    connection has a session for, and leaves no session for another network device behind. A
    connection that ends, by either side, holds no session for a network device. -/
def KeepsAgreement (w : World) (act : Action) : Prop :=
  match w.change act with
  | .none | .accepted | .skipped => True
  | .opened k x _ =>
      (∀ j, j ≠ k → ¬ w.HoldsSession j x) ∧ ∀ y, w.HoldsNetworkSession k y → y = x
  | .refused k _ | .closed k | .dropped k | .gone k => ∀ y, ¬ w.HoldsNetworkSession k y

theorem keepsAgreement_iff (w : World) (act : Action) :
    w.KeepsAgreement act ↔ w.sessions.KeepsAgreement (w.change act) := by
  unfold KeepsAgreement Sessions.KeepsAgreement
  cases w.change act with
  | none | accepted | skipped => exact Iff.rfl
  | opened k x v => simp only [holdsSession_iff, holdsNetworkSession_iff, not_exists, ne_eq]
  | refused | closed | dropped | gone => simp only [holdsNetworkSession_iff, ne_eq]

/-- A run is in agreement throughout exactly when every step keeps the agreement. -/
theorem agreement_exact {devices : List Device} {tr : List (World × Action)}
    (hrun : machine.Run (loadVirtualDevices devices) tr w) :
    Machine.States Agreement tr w ↔ Machine.Steps KeepsAgreement tr := by
  refine hrun.exact (J := fun w => w.WF ∧ w.Agreement)
    ⟨wf_loadVirtualDevices devices, agreement_loadVirtualDevices devices⟩ (fun _ h => h.2) ?_ ?_
  · rintro w act w' ⟨hwf, ha⟩ he hs hq
    have hst := step_change hwf he hs
    refine ⟨hst.wf, (agreement_iff hst.wf).mpr ?_⟩
    rw [hst.sessions]
    exact (Sessions.agreement_apply hwf.sessions ((agreement_iff hwf).mp ha) hst.admitted).mpr
      ((keepsAgreement_iff w act).mp hq)
  · rintro w act w' ⟨hwf, ha⟩ he hs hq ha'
    have hst := step_change hwf he hs
    have hs' := (agreement_iff hst.wf).mp ha'
    rw [hst.sessions] at hs'
    exact hq ((keepsAgreement_iff w act).mpr
      ((Sessions.agreement_apply hwf.sessions ((agreement_iff hwf).mp ha) hst.admitted).mp hs'))

/-- A device connects, starts its session, and its peer goes away. -/
def lostPeer : List Action :=
  [.accept, .read 0 (ascii "create_session 5" ++ [0]) (answering [{ id := 5 }]), .readError 0 .eof]

theorem agreement_exact_lostPeer : ∃ tr w,
    machine.exec [] (loadVirtualDevices []) lostPeer = some (tr, w) ∧
      (Machine.States Agreement tr w ↔ Machine.Steps KeepsAgreement tr) := by
  obtain ⟨⟨tr, w⟩, he⟩ : ∃ r, machine.exec [] (loadVirtualDevices []) lostPeer = some r :=
    Option.isSome_iff_exists.mp (by decide)
  exact ⟨tr, w, he, agreement_exact (Machine.Run.start.exec he)⟩

/-- The device stays registered. -/
theorem not_agreement_lostPeer :
    ¬ ∀ (devices : List Device) (tr : List (World × Action)) (w : World),
      machine.Run (loadVirtualDevices devices) tr w → Machine.States Agreement tr w := by
  intro h
  obtain ⟨⟨tr, w⟩, he⟩ : ∃ r, machine.exec [] (loadVirtualDevices []) lostPeer = some r :=
    Option.isSome_iff_exists.mp (by decide)
  have hrun := Machine.Run.start.exec he
  have hfinal : (machine.exec [] (loadVirtualDevices []) lostPeer).all (fun r =>
      r.2.nextConn = 1 ∧ (r.2.conns 0).isOpen = false ∧ r.2.find 5 = some 0 ∧
        (r.2.heap 0).map DeviceState.isNetworkDevice = some true) = true := by decide
  rw [he] at hfinal
  obtain ⟨hnext, hclosed, hfind, hheap⟩ := of_decide_eq_true hfinal
  obtain ⟨d, hd, hnet⟩ := Option.map_eq_some_iff.mp hheap
  obtain ⟨k, hk⟩ := (h [] tr w hrun).2.held hfind hd hnet
  -- only connection 0 was ever accepted, and it is not open
  obtain ⟨v, hv⟩ := holdsSession_iff.mp hk
  obtain ⟨ho, -⟩ := Sessions.session_eq_some.mp hv
  have hlt : k < 1 := hnext ▸ (wf_of_run hrun).2.sessions.lt_next ho
  obtain rfl : k = 0 := Nat.lt_one_iff.mp hlt
  have ho' : (w.conns 0).isOpen = true := ho
  rw [hclosed] at ho'
  cases ho'

end World

end Domoio
