import Domoio.Lib.Brackets
import Domoio.Connection
import Mathlib.Logic.Function.Basic

/-
  File:      Domoio/Sessions.lean
  Subject:   An abstract model of sessions: who is connected for which device.

  The model keeps of a connection its device pointer, its session flag and whether it is open; of a
  device state its id and its kind; the registry; and the marks left by session events (a start for
  `device_connected`, a finish for `device_disconnected`). A `Change` is what one step of the server
  does to them. `Simulation.lean` shows that every step of the device server is such a change.

  * `Sessions.WF` -- pointers and registry entries lead to states; kept by every admitted change;
  * `Sessions.Agreement` -- registry and sessions agree; `agreement_apply` says exactly which
    changes keep it;
  * `Sessions.Bracketed` -- the session events of a connection are well bracketed, with the
    invariant behind it (`Sessions.Marked`) and the changes that keep and break it.
-/

namespace Domoio

open Lib

/-- A connection, as far as sessions go. -/
structure Link where
  device : Option Addr := none
  started : Bool := false
  socketOpen : Bool := false
  disconnected : Bool := false

/-- A connection is open until the server closes it or the peer ends it. -/
def Link.isOpen (l : Link) : Bool := l.socketOpen && !l.disconnected

@[ext] structure Sessions where
  conn : ConnId → Link
  next : ConnId
  /-- The id of the device state at an address, and whether it is virtual. -/
  ident : Addr → Option (Int32 × Bool)
  nextAddr : Addr
  registry : Int32 → Option Addr
  marks : List (ConnId × Mark Int32)

/-- What a step does to the sessions. -/
inductive Change where
  | none
  | accepted
  | skipped
  /-- A session for the device starts on a new device state. -/
  | opened (k : ConnId) (id : Int32) (isVirtual : Bool)
  /-- A session is refused: the device has no row. The connection is closed. -/
  | refused (k : ConnId) (id : Int32)
  /-- The server closes the connection. -/
  | closed (k : ConnId)
  /-- The session is given up after an exception and the connection is closed. -/
  | dropped (k : ConnId)
  /-- The peer ends the connection. -/
  | gone (k : ConnId)
  deriving DecidableEq

/-- The connection a change is on, where it is on one. -/
def Change.conn : Change → Option ConnId
  | .opened k _ _ | .refused k _ | .closed k | .dropped k | .gone k => some k
  | .none | .accepted | .skipped => Option.none

/-- The connection a change ends. -/
def Change.ends : Change → Option ConnId
  | .refused k _ | .closed k | .dropped k | .gone k => some k
  | .none | .accepted | .skipped | .opened _ _ _ => Option.none

namespace Sessions

/-! ## 1. Changes -/

def setConn (s : Sessions) (k : ConnId) (f : Link → Link) : ConnId → Link :=
  Function.update s.conn k (f (s.conn k))

/-- The mark a closed connection leaves: the finish of the device it points to. -/
def finishMark (s : Sessions) (k : ConnId) (l : Link) : List (ConnId × Mark Int32) :=
  if l.started then
    match l.device.bind s.ident with
    | some (id, _) => [(k, .finish id)]
    | none => []
  else []

def apply (s : Sessions) : Change → Sessions
  | .none => s
  | .accepted => { s with conn := s.setConn s.next fun l => { l with socketOpen := true },
                          next := s.next + 1 }
  | .skipped => { s with next := s.next + 1 }
  | .opened k id isVirtual =>
      { s with conn := s.setConn k fun l => { l with device := some s.nextAddr, started := true },
               ident := Function.update s.ident s.nextAddr (some (id, isVirtual)),
               nextAddr := s.nextAddr + 1,
               registry := Function.update s.registry id (some s.nextAddr),
               marks := s.marks ++ [(k, .start id)] }
  | .refused k id =>
      { s with conn := s.setConn k fun l => { l with device := s.registry id, socketOpen := false },
               marks := s.marks ++ s.finishMark k { s.conn k with device := s.registry id } }
  | .closed k =>
      { s with conn := s.setConn k fun l => { l with socketOpen := false },
               marks := s.marks ++ s.finishMark k (s.conn k) }
  | .dropped k =>
      { s with conn := s.setConn k fun l => { l with started := false, socketOpen := false } }
  | .gone k => { s with conn := s.setConn k fun l => { l with disconnected := true } }

/-- A change comes on an open connection; a session is given up where there is one; the device
    pointer is not NULL when a closed session's event is sent. -/
def Admitted (s : Sessions) : Change → Prop
  | .none | .accepted | .skipped => True
  | .opened k _ _ | .closed k | .gone k => (s.conn k).isOpen = true
  | .refused k id =>
      (s.conn k).isOpen = true ∧ ((s.conn k).started = true → ∃ a, s.registry id = some a)
  | .dropped k => (s.conn k).isOpen = true ∧ (s.conn k).started = true

section Conn

variable (s : Sessions) (k : ConnId) (f : Link → Link)

@[simp] theorem setConn_self : s.setConn k f k = f (s.conn k) := by simp [setConn]

theorem setConn_ne {j : ConnId} (h : j ≠ k) : s.setConn k f j = s.conn j := by simp [setConn, h]

end Conn

/-! What a change does that ends a connection. -/

section Ends

variable {s : Sessions} {c : Change} {k : ConnId}

/-- The connection is closed. -/
theorem isOpen_apply_ends (hc : c.ends = some k) : ((s.apply c).conn k).isOpen = false := by
  cases c with
  | none | accepted | skipped | opened => cases hc
  | refused | closed | dropped | gone =>
      cases hc
      simp [apply, Link.isOpen]

/-- The other connections, the device states and the registry stay as they were. -/
theorem apply_ends_frame (hc : c.ends = some k) :
    (∀ j, j ≠ k → (s.apply c).conn j = s.conn j) ∧ (s.apply c).ident = s.ident ∧
      (s.apply c).registry = s.registry := by
  cases c with
  | none | accepted | skipped | opened => cases hc
  | refused | closed | dropped | gone =>
      cases hc
      exact ⟨fun j hj => by simp only [apply, setConn_ne _ _ _ hj], rfl, rfl⟩

end Ends

/-! ## 2. Well-formedness -/

/-- What holds in every state the server reaches. -/
structure WF (s : Sessions) : Prop where
  device_ident : ∀ {k a}, (s.conn k).device = some a → ∃ p, s.ident a = some p
  registry_ident : ∀ {x a}, s.registry x = some a → ∃ v, s.ident a = some (x, v)
  ident_lt : ∀ {a p}, s.ident a = some p → a < s.nextAddr
  started_device : ∀ {k}, (s.conn k).started = true → ∃ a, (s.conn k).device = some a
  idle_device : ∀ {k}, (s.conn k).isOpen = true → (s.conn k).started = false →
    (s.conn k).device = none
  next_fresh : ∀ {k}, s.next ≤ k → s.conn k = {}

variable {s : Sessions} {c : Change} {k j : ConnId}

theorem WF.ident_nextAddr (h : s.WF) : s.ident s.nextAddr = none := by
  cases hi : s.ident s.nextAddr with
  | none => rfl
  | some p => exact absurd (h.ident_lt hi) (Nat.lt_irrefl _)

/-- A new device state is at an address where nothing was. -/
theorem WF.ident_update (h : s.WF) {a : Addr} {p q : Int32 × Bool} (ha : s.ident a = some p) :
    Function.update s.ident s.nextAddr (some q) a = some p := by
  rw [Function.update_of_ne, ha]
  intro heq
  subst heq
  rw [h.ident_nextAddr] at ha
  cases ha

/-- A connection that has been used was accepted. -/
theorem WF.lt_next (h : s.WF) (hk : (s.conn k).isOpen = true) : k < s.next := by
  by_contra hn
  rw [h.next_fresh (Nat.le_of_not_lt hn)] at hk
  cases hk

/-- A change of one connection and of nothing else keeps the states well formed, when the
    connection's new pointer and flag fit. -/
theorem WF.conn_change (h : s.WF) (hk : (s.conn k).isOpen = true) {l : Link}
    {m : List (ConnId × Mark Int32)}
    (hd : ∀ a, l.device = some a → ∃ p, s.ident a = some p)
    (hst : l.started = true → ∃ a, l.device = some a)
    (hidle : l.isOpen = true → l.started = false → l.device = none) :
    WF { s with conn := s.setConn k fun _ => l, marks := m } where
  device_ident {j a} hj := by
    by_cases hjk : j = k
    · subst hjk
      exact hd a (by simpa using hj)
    · simp only [setConn_ne _ _ _ hjk] at hj
      exact h.device_ident hj
  registry_ident := h.registry_ident
  ident_lt := h.ident_lt
  started_device {j} hj := by
    by_cases hjk : j = k
    · subst hjk
      simpa using hst (by simpa using hj)
    · simp only [setConn_ne _ _ _ hjk] at hj ⊢
      exact h.started_device hj
  idle_device {j} ho hj := by
    by_cases hjk : j = k
    · subst hjk
      simpa using hidle (by simpa using ho) (by simpa using hj)
    · simp only [setConn_ne _ _ _ hjk] at ho hj ⊢
      exact h.idle_device ho hj
  next_fresh {j} hj := by
    have hjk : j ≠ k := by
      intro heq
      subst heq
      exact absurd (h.lt_next hk) (Nat.not_lt.mpr hj)
    simp only [setConn_ne _ _ _ hjk]
    exact h.next_fresh hj

/-- A new device state may be registered at any time. -/
theorem WF.registered (h : s.WF) (id : Int32) (v : Bool) :
    WF { s with ident := Function.update s.ident s.nextAddr (some (id, v)),
                nextAddr := s.nextAddr + 1,
                registry := Function.update s.registry id (some s.nextAddr) } where
  device_ident hj := by
    obtain ⟨p, hp⟩ := h.device_ident hj
    exact ⟨p, h.ident_update hp⟩
  registry_ident {x a} hx := by
    by_cases hxi : x = id
    · subst hxi
      have ha : s.nextAddr = a := by simpa using hx
      subst ha
      exact ⟨v, by simp⟩
    · simp only [Function.update_of_ne hxi] at hx
      obtain ⟨v', hv'⟩ := h.registry_ident hx
      exact ⟨v', h.ident_update hv'⟩
  ident_lt {a p} ha := by
    by_cases han : a = s.nextAddr
    · rw [han]
      exact Nat.lt_succ_self _
    · simp only [Function.update_of_ne han] at ha
      exact Nat.lt_succ_of_lt (h.ident_lt ha)
  started_device := h.started_device
  idle_device := h.idle_device
  next_fresh := h.next_fresh

theorem WF.opened (h : s.WF) (hk : (s.conn k).isOpen = true) (id : Int32) (v : Bool) :
    (s.apply (.opened k id v)).WF := by
  refine (h.registered id v).conn_change (k := k)
    (l := { s.conn k with device := some s.nextAddr, started := true }) hk ?_ ?_ ?_
  · intro a ha
    cases ha
    exact ⟨(id, v), by simp⟩
  · exact fun _ => ⟨s.nextAddr, rfl⟩
  · intro _ hs
    cases hs

theorem WF.accepted (h : s.WF) : (s.apply .accepted).WF where
  device_ident {j a} hj := by
    by_cases hjk : j = s.next
    · subst hjk
      simp [apply, h.next_fresh (Nat.le_refl _)] at hj
    · simp only [apply, setConn_ne _ _ _ hjk] at hj
      exact h.device_ident hj
  registry_ident := h.registry_ident
  ident_lt := h.ident_lt
  started_device {j} hj := by
    by_cases hjk : j = s.next
    · subst hjk
      simp [apply, h.next_fresh (Nat.le_refl _)] at hj
    · simp only [apply, setConn_ne _ _ _ hjk] at hj ⊢
      exact h.started_device hj
  idle_device {j} ho hj := by
    by_cases hjk : j = s.next
    · subst hjk
      simp [apply, h.next_fresh (Nat.le_refl _)]
    · simp only [apply, setConn_ne _ _ _ hjk] at ho hj ⊢
      exact h.idle_device ho hj
  next_fresh {j} hj := by
    have hjk : j ≠ s.next := by
      intro heq
      subst heq
      exact absurd hj (Nat.not_succ_le_self _)
    simp only [apply, setConn_ne _ _ _ hjk]
    exact h.next_fresh (Nat.le_of_succ_le hj)

/-- Every admitted change keeps the state well formed. -/
theorem WF.apply (h : s.WF) (hc : s.Admitted c) : (s.apply c).WF := by
  cases c with
  | none => exact h
  | accepted => exact h.accepted
  | skipped =>
      exact { h with next_fresh := fun hj => h.next_fresh (Nat.le_of_succ_le hj) }
  | opened k id v => exact h.opened hc id v
  | refused k id =>
      refine h.conn_change hc.1 ?_ hc.2 (fun ho => by cases ho)
      intro a ha
      obtain ⟨v, hv⟩ := h.registry_ident ha
      exact ⟨_, hv⟩
  | closed k =>
      exact h.conn_change hc (fun _ => h.device_ident) h.started_device (fun ho => by cases ho)
  | dropped k =>
      exact h.conn_change hc.1 (fun _ => h.device_ident) (fun hs => by cases hs)
        (fun ho => by cases ho)
  | gone k =>
      exact h.conn_change (l := { s.conn k with disconnected := true }) (m := s.marks) hc
        (fun _ => h.device_ident) h.started_device (fun ho => by simp [Link.isOpen] at ho)

/-! ## 3. Sessions -/

/-- The session an open connection holds: the device's id, and whether it is virtual. -/
def session (s : Sessions) (k : ConnId) : Option (Int32 × Bool) :=
  if (s.conn k).isOpen && (s.conn k).started then (s.conn k).device.bind s.ident else none

theorem session_eq_some {p : Int32 × Bool} : s.session k = some p ↔
    (s.conn k).isOpen = true ∧ (s.conn k).started = true ∧
      ∃ a, (s.conn k).device = some a ∧ s.ident a = some p := by
  unfold session
  constructor
  · intro h
    split at h
    · rename_i hb
      obtain ⟨ho, hs⟩ := Bool.and_eq_true_iff.mp hb
      exact ⟨ho, hs, Option.bind_eq_some_iff.mp h⟩
    · cases h
  · intro hex
    rcases hex with ⟨ho, hs, a, hd, ha⟩
    rw [if_pos (by rw [ho, hs]; rfl), hd]
    exact ha

theorem session_of_closed (h : (s.conn k).isOpen = false) : s.session k = none := by
  simp [session, h]

theorem session_of_idle (h : (s.conn k).started = false) : s.session k = none := by
  simp [session, h]

/-- In a well-formed state an open connection whose session is started holds one. -/
theorem WF.session (h : s.WF) (ho : (s.conn k).isOpen = true) (hs : (s.conn k).started = true) :
    ∃ p, s.session k = some p := by
  obtain ⟨a, hd⟩ := h.started_device hs
  obtain ⟨p, hp⟩ := h.device_ident hd
  exact ⟨p, session_eq_some.mpr ⟨ho, hs, a, hd, hp⟩⟩

/-- The sessions after one starts. -/
theorem session_opened (h : s.WF) (hk : (s.conn k).isOpen = true) (id : Int32) (v : Bool) :
    (s.apply (.opened k id v)).session j = if j = k then some (id, v) else s.session j := by
  by_cases hjk : j = k
  · subst hjk
    rw [if_pos rfl]
    exact session_eq_some.mpr ⟨by simpa [apply, Link.isOpen] using hk, by simp [apply], s.nextAddr,
      by simp [apply], by simp [apply]⟩
  · rw [if_neg hjk]
    simp only [session, apply, setConn_ne _ _ _ hjk]
    cases hd : (s.conn j).device with
    | none => rfl
    | some a =>
        obtain ⟨p, hp⟩ := h.device_ident hd
        simp only [Option.bind_some, hp, h.ident_update hp]

theorem session_accepted (h : s.WF) : (s.apply .accepted).session j = s.session j := by
  by_cases hj : j = s.next
  · subst hj
    have hf := h.next_fresh (Nat.le_refl s.next)
    rw [session_of_idle (s := s) (by simp [hf]),
      session_of_idle (s := s.apply .accepted) (by simp [apply, hf])]
  · simp only [session, apply, setConn_ne _ _ _ hj]


/-- The sessions after a connection ends, however it does. -/
theorem session_apply_ends (hc : c.ends = some k) :
    (s.apply c).session j = if j = k then none else s.session j := by
  by_cases hjk : j = k
  · rw [if_pos hjk, hjk]
    exact session_of_closed (isOpen_apply_ends hc)
  · obtain ⟨hconn, hident, -⟩ := apply_ends_frame (s := s) hc
    rw [if_neg hjk, session, session, hconn j hjk, hident]

/-- Where a connection's session comes from: it was just started, or the connection had it before
    and its pointer is the same; then the registry's entry is too, unless another connection has
    just started a session for the device. -/
theorem session_apply (h : s.WF) (hc : s.Admitted c) {p : Int32 × Bool}
    (hs : (s.apply c).session k = some p) :
    c = .opened k p.1 p.2 ∨
      (s.session k = some p ∧ (s.apply c).conn k = s.conn k ∧
        (∀ x v, c ≠ .opened k x v) ∧
        ((s.apply c).registry p.1 = s.registry p.1 ∨ ∃ j v, j ≠ k ∧ c = .opened j p.1 v)) := by
  cases c with
  | none => exact Or.inr ⟨hs, rfl, by simp, Or.inl rfl⟩
  | skipped => exact Or.inr ⟨hs, rfl, by simp, Or.inl rfl⟩
  | accepted =>
      rw [session_accepted h] at hs
      obtain ⟨ho, -⟩ := session_eq_some.mp hs
      have hk : k ≠ s.next := Nat.ne_of_lt (h.lt_next ho)
      exact Or.inr ⟨hs, by simp only [apply, setConn_ne _ _ _ hk], by simp, Or.inl rfl⟩
  | opened j x v =>
      rw [session_opened h hc] at hs
      by_cases hkj : k = j
      · rw [if_pos hkj] at hs
        cases hs
        rw [hkj]
        exact Or.inl rfl
      · rw [if_neg hkj] at hs
        refine Or.inr ⟨hs, by simp only [apply, setConn_ne _ _ _ hkj], ?_, ?_⟩
        · intro y w heq
          cases heq
          exact hkj rfl
        · by_cases hx : p.1 = x
          · exact Or.inr ⟨j, v, Ne.symm hkj, by rw [hx]⟩
          · exact Or.inl (by simp only [apply, Function.update_of_ne hx])
  | refused j | closed j | dropped j | gone j =>
      rw [session_apply_ends rfl] at hs
      split at hs
      · cases hs
      · rename_i hkj
        exact Or.inr ⟨hs, by simp only [apply, setConn_ne _ _ _ hkj], by simp, Or.inl rfl⟩

/-! ## 4. Agreement with the registry -/

/-- Registry and sessions agree: a session's device pointer is the registry's entry, no two
    connections hold a session for one device, and a network device is registered only while a
    connection holds a session for it. -/
structure Agreement (s : Sessions) : Prop where
  pointer : ∀ {k x v}, s.session k = some (x, v) → (s.conn k).device = s.registry x
  unique : ∀ {k j x v w}, s.session k = some (x, v) → s.session j = some (x, w) → k = j
  held : ∀ {x a}, s.registry x = some a → s.ident a = some (x, false) →
    ∃ k v, s.session k = some (x, v)

/-- The changes that keep the agreement: a session starts for a device no other connection has a
    session for, and leaves no network device behind; no connection ends that holds a session for a
    network device. -/
def KeepsAgreement (s : Sessions) : Change → Prop
  | .none | .accepted | .skipped => True
  | .opened k id _ =>
      (∀ j, j ≠ k → ∀ w, s.session j ≠ some (id, w)) ∧ ∀ x, s.session k = some (x, false) → x = id
  | .refused k _ | .closed k | .dropped k | .gone k => ∀ x, s.session k ≠ some (x, false)

/-- The registry's entry for a session's device is of the session's kind. -/
theorem Agreement.kind (ha : s.Agreement) {x : Int32} {a : Addr} {v : Bool}
    (hr : s.registry x = some a) (hs : s.session k = some (x, v)) : s.ident a = some (x, v) := by
  obtain ⟨-, -, b, hd, hb⟩ := session_eq_some.mp hs
  rw [ha.pointer hs, hr] at hd
  cases hd
  exact hb

theorem Agreement.kind_eq (ha : s.Agreement) {x : Int32} {a : Addr} {u v : Bool}
    (hr : s.registry x = some a) (hi : s.ident a = some (x, u)) (hs : s.session k = some (x, v)) :
    v = u := by
  have hkind := ha.kind hr hs
  rw [hi] at hkind
  cases hkind
  rfl

/-- Ending a connection keeps the agreement exactly when it holds no network device's session. -/
theorem agreement_ended (ha : s.Agreement) (hc : c.ends = some k) :
    (s.apply c).Agreement ↔ ∀ x, s.session k ≠ some (x, false) := by
  obtain ⟨hconn, hident, hregistry⟩ := apply_ends_frame (s := s) hc
  constructor
  · intro h x hx
    -- the device stays registered, and only `k` could hold a session for it
    obtain ⟨-, -, a, hd, hi⟩ := session_eq_some.mp hx
    have hr : s.registry x = some a := (ha.pointer hx).symm.trans hd
    obtain ⟨j, w, hj⟩ := h.held (by rw [hregistry, hr]) (by rw [hident, hi])
    rw [session_apply_ends hc] at hj
    split at hj
    · cases hj
    · rename_i hjk
      exact hjk (ha.unique hj hx)
  · intro h
    refine ⟨fun {j x v} hj => ?_, fun {j j' x v w} hj hj' => ?_, fun {x a} hr hi => ?_⟩
    · rw [session_apply_ends hc] at hj
      split at hj
      · cases hj
      · rename_i hjk
        rw [hconn j hjk, hregistry]
        exact ha.pointer hj
    · rw [session_apply_ends hc] at hj hj'
      split at hj
      · cases hj
      · split at hj'
        · cases hj'
        · exact ha.unique hj hj'
    · rw [hregistry] at hr
      rw [hident] at hi
      obtain ⟨j, w, hj⟩ := ha.held hr hi
      have hw : w = false := ha.kind_eq hr hi hj
      refine ⟨j, w, ?_⟩
      rw [session_apply_ends hc, if_neg]
      · exact hj
      · intro heq
        subst heq
        rw [hw] at hj
        exact h x hj

/-- What a session that starts leaves in agreement was none of another connection's. -/
theorem KeepsAgreement.of_opened (h : s.WF) (ha : s.Agreement) (hk : (s.conn k).isOpen = true)
    {id : Int32} {v : Bool} (h' : (s.apply (.opened k id v)).Agreement) :
    s.KeepsAgreement (.opened k id v) := by
  refine ⟨fun j hjk w hj => ?_, fun x hx => ?_⟩
  · have hj' : (s.apply (.opened k id v)).session j = some (id, w) := by
      rw [session_opened h hk, if_neg hjk, hj]
    have hk' : (s.apply (.opened k id v)).session k = some (id, v) := by
      rw [session_opened h hk, if_pos rfl]
    exact hjk (h'.unique hj' hk')
  · by_contra hxi
    -- the device left behind stays registered without a session
    obtain ⟨-, -, a, hd, hi⟩ := session_eq_some.mp hx
    have hr : (s.apply (.opened k id v)).registry x = some a := by
      simp only [apply, Function.update_of_ne hxi]
      exact (ha.pointer hx).symm.trans hd
    obtain ⟨j, w, hj⟩ := h'.held hr (h.ident_update hi)
    rw [session_opened h hk] at hj
    split at hj
    · cases hj
      exact hxi rfl
    · rename_i hjk
      exact hjk (ha.unique hj hx)

/-- A registered network device other than the one that is opened keeps its session. -/
theorem Agreement.held_opened (h : s.WF) (ha : s.Agreement) (hk : (s.conn k).isOpen = true)
    {id : Int32} {v : Bool} (hown : ∀ x, s.session k = some (x, false) → x = id) {x : Int32} {a : Addr}
    (hxi : x ≠ id) (hr : s.registry x = some a)
    (hi : (s.apply (.opened k id v)).ident a = some (x, false)) :
    ∃ j w, (s.apply (.opened k id v)).session j = some (x, w) := by
  obtain ⟨w, hw⟩ := h.registry_ident hr
  have hw' : w = false := by
    have hi' := h.ident_update (q := (id, v)) hw
    simp only [apply] at hi
    rw [hi] at hi'
    cases hi'
    rfl
  subst hw'
  obtain ⟨j, w, hj⟩ := ha.held hr hw
  refine ⟨j, w, ?_⟩
  rw [session_opened h hk, if_neg]
  · exact hj
  · intro heq
    subst heq
    have hwfalse : w = false := ha.kind_eq hr hw hj
    subst hwfalse
    exact hxi (hown x hj)

/-- A session for a device that no other connection has one for keeps the agreement. -/
theorem Agreement.opened (h : s.WF) (ha : s.Agreement) (hk : (s.conn k).isOpen = true)
    {id : Int32} {v : Bool} (hother : ∀ j, j ≠ k → ∀ w, s.session j ≠ some (id, w))
    (hown : ∀ x, s.session k = some (x, false) → x = id) :
    (s.apply (.opened k id v)).Agreement := by
  refine ⟨fun {j x w} hj => ?_, fun {j j' x w w'} hj hj' => ?_, fun {x a} hr hi => ?_⟩
  · rw [session_opened h hk] at hj
    split at hj
    · rename_i hjk
      cases hj
      simp [apply, hjk]
    · rename_i hjk
      have hxi : x ≠ id := by
        intro heq
        subst heq
        exact hother j hjk w hj
      simp only [apply, setConn_ne _ _ _ hjk, Function.update_of_ne hxi]
      exact ha.pointer hj
  · rw [session_opened h hk] at hj hj'
    split at hj
    · rename_i hjk
      cases hj
      split at hj'
      · rename_i hjk'
        rw [hjk, hjk']
      · rename_i hjk'
        exact absurd hj' (hother j' hjk' w')
    · rename_i hjk
      split at hj'
      · cases hj'
        exact absurd hj (hother j hjk w)
      · exact ha.unique hj hj'
  · by_cases hxi : x = id
    · subst hxi
      exact ⟨k, v, by rw [session_opened h hk, if_pos rfl]⟩
    · simp only [apply, Function.update_of_ne hxi] at hr
      exact ha.held_opened h hk hown hxi hr hi

theorem agreement_opened (h : s.WF) (ha : s.Agreement) (hk : (s.conn k).isOpen = true)
    (id : Int32) (v : Bool) :
    (s.apply (.opened k id v)).Agreement ↔ s.KeepsAgreement (.opened k id v) :=
  ⟨fun h' => KeepsAgreement.of_opened h ha hk h', fun hex => ha.opened h hk hex.1 hex.2⟩

/-- A change keeps the agreement exactly when it is one of those. -/
theorem agreement_apply (h : s.WF) (ha : s.Agreement) (hc : s.Admitted c) :
    (s.apply c).Agreement ↔ s.KeepsAgreement c := by
  cases c with
  | none => exact iff_of_true ha trivial
  | accepted =>
      refine iff_of_true ⟨fun {j x v} hj => ?_, fun {j j' x v w} hj hj' => ?_, ?_⟩ trivial
      · rw [session_accepted h] at hj
        have hjn : j ≠ s.next := by
          intro heq
          subst heq
          rw [session_of_idle (by rw [h.next_fresh (Nat.le_refl _)])] at hj
          cases hj
        simp only [apply, setConn_ne _ _ _ hjn]
        exact ha.pointer hj
      · rw [session_accepted h] at hj hj'
        exact ha.unique hj hj'
      · intro x a hr hi
        obtain ⟨j, w, hj⟩ := ha.held hr hi
        exact ⟨j, w, by rw [session_accepted h, hj]⟩
  | skipped => exact iff_of_true { ha with } trivial
  | opened k id v => exact agreement_opened h ha hc id v
  | refused | closed | dropped | gone => exact agreement_ended ha rfl

/-! ## 5. Brackets of session events -/

/-- The marks of one connection. -/
def marksOf (s : Sessions) (k : ConnId) : List (Mark Int32) :=
  s.marks.filterMap fun m => if m.1 = k then some m.2 else none

/-- The session events of a connection are well bracketed. -/
structure Bracketed (s : Sessions) (k : ConnId) : Prop where
  alternates : Mark.Alternates (s.marksOf k)
  balanced : (s.conn k).isOpen = false → Mark.Balanced (s.marksOf k)

/-- The invariant behind it: outside a session the marks are balanced, in one a start of its device
    is open. -/
structure Marked (s : Sessions) (k : ConnId) : Prop where
  during : ∀ {p}, s.session k = some p → ∃ l, Mark.Balanced l ∧ s.marksOf k = l ++ [.start p.1]
  outside : s.session k = none → Mark.Balanced (s.marksOf k)

/-- The changes that keep the brackets of connection `k`: no session starts inside a session, one
    that is refused inside a session is for the session's device, and a session ends by `closed`. -/
def KeepsBrackets (s : Sessions) (k : ConnId) : Change → Prop
  | .none | .accepted | .skipped | .closed _ => True
  | .opened j _ _ | .dropped j | .gone j => j = k → s.session k = none
  | .refused j id => j = k → ∀ p, s.session k = some p → p.1 = id

theorem Marked.bracketed (h : s.Marked k) : s.Bracketed k where
  alternates := by
    cases hs : s.session k with
    | none => exact (h.outside hs).alternates
    | some p =>
        obtain ⟨l, hl, hm⟩ := h.during hs
        rw [hm]
        exact hl.alternates_start p.1
  balanced hc := h.outside (session_of_closed hc)

/-- The marks of `k` after more marks, the connections changing as they may. -/
theorem marksOf_append (m : List (ConnId × Mark Int32)) (conn : ConnId → Link) :
    marksOf { s with conn := conn, marks := s.marks ++ m } k =
      s.marksOf k ++ m.filterMap fun p => if p.1 = k then some p.2 else none := by
  simp [marksOf]

theorem finishMark_of_idle {l : Link} (hl : l.started = false) : s.finishMark k l = [] := by
  simp [finishMark, hl]

theorem finishMark_of_started {l : Link} {a : Addr} {p : Int32 × Bool}
    (hl : l.started = true) (hd : l.device = some a) (hi : s.ident a = some p) :
    s.finishMark k l = [(k, .finish p.1)] := by
  simp [finishMark, hl, hd, hi]

theorem finishMark_other {l : Link} (hjk : j ≠ k) :
    (s.finishMark j l).filterMap (fun p => if p.1 = k then some p.2 else none) = [] := by
  unfold finishMark
  split
  · split <;> simp [hjk]
  · rfl

/-- A connection whose session and marks stay as they were stays marked. -/
theorem Marked.of_eq {s' : Sessions} (h : s.Marked k) (hs : s'.session k = s.session k)
    (hm : s'.marksOf k = s.marksOf k) : s'.Marked k where
  during hp := by
    rw [hm]
    exact h.during (hs ▸ hp)
  outside hn := by
    rw [hm]
    exact h.outside (hs ▸ hn)

/-- A connection that ended stays marked when its marks are balanced. -/
theorem Marked.of_balanced {s' : Sessions} (hs : s'.session k = none)
    (hm : Mark.Balanced (s'.marksOf k)) : s'.Marked k where
  during hp := by
    rw [hs] at hp
    cases hp
  outside _ := hm

/-- In a well-formed state an open connection is either idle or in a session. -/
theorem WF.idle_or_session (h : s.WF) (ho : (s.conn k).isOpen = true) :
    ((s.conn k).started = false ∧ s.session k = none) ∨
      ∃ p, (s.conn k).started = true ∧ s.session k = some p := by
  cases hs : (s.conn k).started with
  | false => exact Or.inl ⟨rfl, session_of_idle hs⟩
  | true =>
      obtain ⟨p, hp⟩ := h.session ho hs
      exact Or.inr ⟨p, rfl, hp⟩

/-- The finish mark of the device itself closes the open start. -/
theorem Marked.balanced_finish (h : s.Marked k) {p : Int32 × Bool} (hp : s.session k = some p) :
    Mark.Balanced (s.marksOf k ++ [.finish p.1]) := by
  obtain ⟨l, hl, hm⟩ := h.during hp
  rw [hm, List.append_assoc]
  exact hl.pair p.1

/-- What a `closed` does to the marks of its own connection. -/
theorem marked_closed (h : s.WF) (hm : s.Marked k) (ho : (s.conn k).isOpen = true) :
    (s.apply (.closed k)).Marked k := by
  have hn : (s.apply (.closed k)).session k = none :=
    session_of_closed (isOpen_apply_ends rfl)
  refine Marked.of_balanced hn ?_
  simp only [apply, marksOf_append]
  rcases h.idle_or_session ho with ⟨hs, hnone⟩ | ⟨p, hs, hp⟩
  · rw [finishMark_of_idle hs]
    simpa using hm.outside hnone
  · obtain ⟨-, -, a, hd, hi⟩ := session_eq_some.mp hp
    rw [finishMark_of_started hs hd hi]
    simpa using hm.balanced_finish hp

/-- The marks of a refused session's connection: inside a session the finish of the device that was
    asked for. -/
theorem marksOf_refused (h : s.WF) {id : Int32} (hc : s.Admitted (.refused k id)) :
    (s.apply (.refused k id)).marksOf k =
      s.marksOf k ++ if s.session k = none then [] else [.finish id] := by
  simp only [apply, marksOf_append]
  rcases h.idle_or_session hc.1 with ⟨hs, hnone⟩ | ⟨p, hs, hp⟩
  · rw [finishMark_of_idle (l := { s.conn k with device := s.registry id }) hs, if_pos hnone]
    rfl
  · obtain ⟨a, ha⟩ := hc.2 hs
    obtain ⟨v, hv⟩ := h.registry_ident ha
    rw [finishMark_of_started (l := { s.conn k with device := s.registry id }) hs ha hv,
      if_neg (by rw [hp]; simp)]
    simp

/-- A change on another connection, or on none, leaves a connection's marks and session alone. -/
theorem Marked.apply_other (h : s.WF) (hm : s.Marked k) (hc : s.Admitted c)
    (hk : ∀ j, c.conn = some j → j ≠ k) : (s.apply c).Marked k := by
  cases c with
  | none => exact hm
  | accepted => exact hm.of_eq (session_accepted h) rfl
  | skipped => exact hm.of_eq rfl rfl
  | opened j id v =>
      have hjk := hk j rfl
      refine hm.of_eq ?_ ?_
      · rw [session_opened h hc, if_neg hjk.symm]
      · simp [apply, marksOf, hjk]
  | refused j id =>
      have hjk := hk j rfl
      refine hm.of_eq ?_ ?_
      · rw [session_apply_ends rfl, if_neg hjk.symm]
      · show marksOf { s with conn := _, marks := s.marks ++ _ } k = s.marksOf k
        rw [marksOf_append, finishMark_other hjk, List.append_nil]
  | closed j =>
      have hjk := hk j rfl
      refine hm.of_eq ?_ ?_
      · rw [session_apply_ends rfl, if_neg hjk.symm]
      · show marksOf { s with conn := _, marks := s.marks ++ _ } k = s.marksOf k
        rw [marksOf_append, finishMark_other hjk, List.append_nil]
  | dropped j | gone j =>
      refine hm.of_eq ?_ rfl
      rw [session_apply_ends rfl, if_neg (hk j rfl).symm]

/-- A change that keeps the brackets keeps the invariant behind them. -/
theorem Marked.apply (h : s.WF) (hm : s.Marked k) (hc : s.Admitted c)
    (hk : s.KeepsBrackets k c) : (s.apply c).Marked k := by
  by_cases hother : ∀ j, c.conn = some j → j ≠ k
  · exact hm.apply_other h hc hother
  · push Not at hother
    obtain ⟨j, hj, rfl⟩ := hother
    cases c with
    | none | accepted | skipped => cases hj
    | opened k id v =>
        cases hj
        refine ⟨fun {p} hp => ?_, fun hn => ?_⟩
        · rw [session_opened h hc, if_pos rfl] at hp
          cases hp
          exact ⟨s.marksOf j, hm.outside (hk rfl), by simp [apply, marksOf]⟩
        · rw [session_opened h hc, if_pos rfl] at hn
          cases hn
    | refused k id =>
        cases hj
        refine Marked.of_balanced (session_of_closed (isOpen_apply_ends rfl)) ?_
        rw [marksOf_refused h hc]
        rcases h.idle_or_session hc.1 with ⟨-, hn⟩ | ⟨p, -, hp⟩
        · simpa [hn] using hm.outside hn
        · have hid := hk rfl p hp
          subst hid
          simpa [hp] using hm.balanced_finish hp
    | closed k =>
        cases hj
        exact marked_closed h hm hc
    | dropped k =>
        cases hj
        exact Marked.of_balanced (session_of_closed (isOpen_apply_ends rfl)) (hm.outside (hk rfl))
    | gone k =>
        cases hj
        exact Marked.of_balanced (session_of_closed (isOpen_apply_ends rfl)) (hm.outside (hk rfl))

/-- A connection that ends with an open start is not bracketed. -/
theorem not_bracketed_of_start {s' : Sessions} {p : Int32 × Bool} (hm : s.Marked k)
    (hp : s.session k = some p) (hc : (s'.conn k).isOpen = false)
    (hs : s'.marksOf k = s.marksOf k) : ¬ s'.Bracketed k := by
  intro hb
  obtain ⟨l, -, hl⟩ := hm.during hp
  have hbal := hb.balanced hc
  rw [hs, hl] at hbal
  exact hbal.not_start

/-- A change that does not keep the brackets breaks them at once. -/
theorem not_bracketed_apply (h : s.WF) (hm : s.Marked k) (hc : s.Admitted c)
    (hk : ¬ s.KeepsBrackets k c) : ¬ (s.apply c).Bracketed k := by
  cases c with
  | none | accepted | skipped | closed => exact absurd trivial hk
  | opened j id v =>
      simp only [KeepsBrackets, Classical.not_imp] at hk
      obtain ⟨rfl, hk⟩ := hk
      obtain ⟨p, hp⟩ := Option.ne_none_iff_exists'.mp hk
      obtain ⟨l, -, hl⟩ := hm.during hp
      intro hb
      have ha := hb.alternates
      have hmarks : (s.apply (.opened j id v)).marksOf j = l ++ [.start p.1] ++ [.start id] := by
        rw [← hl]
        simp [apply, marksOf]
      rw [hmarks] at ha
      exact Mark.not_alternates_start_start l p.1 id ha
  | refused j id =>
      simp only [KeepsBrackets, Classical.not_imp, not_forall] at hk
      obtain ⟨rfl, p, hp, hne⟩ := hk
      obtain ⟨l, -, hl⟩ := hm.during hp
      intro hb
      have hbal := hb.balanced (isOpen_apply_ends rfl)
      rw [marksOf_refused h hc, if_neg (by rw [hp]; simp), hl] at hbal
      exact hne hbal.finish_label
  | dropped j =>
      simp only [KeepsBrackets, Classical.not_imp] at hk
      obtain ⟨rfl, hk⟩ := hk
      obtain ⟨p, hp⟩ := Option.ne_none_iff_exists'.mp hk
      exact not_bracketed_of_start hm hp (isOpen_apply_ends rfl) rfl
  | gone j =>
      simp only [KeepsBrackets, Classical.not_imp] at hk
      obtain ⟨rfl, hk⟩ := hk
      obtain ⟨p, hp⟩ := Option.ne_none_iff_exists'.mp hk
      exact not_bracketed_of_start hm hp (isOpen_apply_ends rfl) rfl

end Sessions

end Domoio
