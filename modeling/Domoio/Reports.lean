import Domoio.Lib.Numeral
import Domoio.Login

/-
  File:      Domoio/Reports.lean
  Subject:   What a device's `aps` does, parameter list by parameter list.

  A parameter `<int>:<int>`, with a comma behind it or without, assigns a value to a port.

  * `aps_assigns` -- where every parameter assigns to a port of the device, the ports take their last
    values, and nothing else happens but the reply;
  * `aps_refused_iff` -- a list with a parameter that does not is refused without a trace exactly when
    the scan stops at a port that is missing and the assignments before it change nothing.
-/

namespace Domoio

open Lib

namespace World

/-! ## 1. Assignments -/

/-- `<id>:<value>`, and perhaps a comma. -/
def Assigns (param : Bytes) (id value : Int) : Prop :=
  ∃ name number, Numeral name id ∧ Numeral number value ∧
    (param = name ++ 58 :: number ∨ param = name ++ 58 :: number ++ [44])

/-- Some parameter does not assign to a port of the device. -/
def Failing (d : DeviceState) (params : List Bytes) : Prop :=
  ∃ param ∈ params, ¬ ∃ (id : Int32) (value : Int), Assigns param id.toInt value ∧
    (d.port id).isSome = true

theorem Assigns.colon {param : Bytes} {id value : Int} (h : Assigns param id value) :
    (58 : UInt8) ∈ param := by
  obtain ⟨name, number, -, -, hparam⟩ := h
  rcases hparam with rfl | rfl <;> simp

/-- `sscanf` finds both numbers. -/
theorem Assigns.sscanfPair {param : Bytes} {id value : Int} (h : Assigns param id value) :
    sscanfPair param = (some (Int32.ofInt (clampLong id)), some (Int32.ofInt (clampLong value))) := by
  obtain ⟨name, number, hname, hnumber, hparam⟩ := h
  -- behind the second number there is the comma or the NUL
  obtain ⟨rest, hnul, hstop, htext⟩ : ∃ rest, NulFree param ∧ Stops rest ∧
      param ++ [0] = name ++ 58 :: (number ++ rest) := by
    have hfree : NulFree (name ++ 58 :: number) := by
      intro c hc
      rcases List.mem_append.mp hc with hc | hc
      · exact hname.nulFree c hc
      rcases List.mem_cons.mp hc with rfl | hc
      · decide
      · exact hnumber.nulFree c hc
    rcases hparam with rfl | rfl
    · exact ⟨[0], hfree, ⟨0, [], rfl, by decide⟩, by simp⟩
    · refine ⟨[44, 0], ?_, ⟨44, [0], rfl, by decide⟩, by simp⟩
      intro c hc
      rcases List.mem_append.mp hc with hc | hc
      · exact hfree c hc
      · obtain rfl := List.mem_singleton.mp hc
        decide
  have hcolon : Stops (58 :: (number ++ rest)) := ⟨58, _, rfl, by decide⟩
  simp only [Lib.sscanfPair, cString_of_nulFree hnul, htext, hname.scanInt hcolon,
    List.head?_cons, if_true, List.tail_cons, hnumber.scanInt hstop, Option.map_some]

/-- What `sscanf` leaves of an assignment whose numbers are in range. -/
theorem Assigns.apsTarget {param : Bytes} {t : Int32 × Int32}
    (h : Assigns param t.1.toInt t.2.toInt) (junk : Int32 × Int32) :
    commands.apsTarget junk param = t := by
  simp [commands.apsTarget, h.sscanfPair, clampLong_int32]

/-! ## 2. Last values -/

/-- The last value a list of assignments gives a port, or the one it had. -/
def lastValue (l : List (Int32 × Int32)) (id v : Int32) : Int32 :=
  ((l.filter fun t => t.1 = id).getLast?.map Prod.snd).getD v

theorem valueAfter_eq (l : List (Int32 × Int32)) (id v : Int32) :
    WatchedDevice.valueAfter l id v = lastValue l id v := by
  induction l using List.reverseRecOn with
  | nil => rfl
  | append_singleton l t ih =>
      rw [WatchedDevice.valueAfter] at ih ⊢
      rw [List.foldl_append, ih, List.foldl_cons, List.foldl_nil, lastValue, lastValue,
        List.filter_append]
      by_cases ht : t.1 = id
      · simp [ht]
      · simp [ht]

/-- Where every parameter assigns to a port, the loop writes every assignment. -/
theorem apsWrites_assigns {d : DeviceState} {params : List Bytes} {targets : List (Int32 × Int32)}
    (h : List.Forall₂ (fun param t => Assigns param t.1.toInt t.2.toInt) params targets)
    (hports : ∀ t ∈ targets, (d.port t.1).isSome = true) (junk : Nat → Int32 × Int32) (i : Nat) :
    WatchedDevice.apsWrites d junk i params = targets ∧ d.namesPorts junk i params = true := by
  induction h generalizing i with
  | nil => exact ⟨rfl, rfl⟩
  | @cons param t params targets ht _ ih =>
      obtain ⟨hwrites, hnames⟩ := ih (fun t ht => hports t (List.mem_cons_of_mem _ ht)) (i + 1)
      have htarget := ht.apsTarget (junk i)
      have hport := hports t List.mem_cons_self
      obtain ⟨p, hp⟩ := Option.isSome_iff_exists.mp hport
      constructor
      · rw [WatchedDevice.apsWrites_found junk i param params (by rw [htarget]; exact hp), htarget,
          hwrites]
      · unfold DeviceState.namesPorts at hnames ⊢
        rw [List.zipIdx_cons, List.all_cons, hnames, htarget, hport]
        rfl

/-! ## 3. The command -/

variable {w w' : World} {k : ConnId} {a : Addr} {d : DeviceState}

theorem executeCallback_aps (env : Env) (w : World) (k : ConnId) (params : List Bytes) :
    executeCallback env w k (ascii "aps") params =
      Command.aps.callback env w k (ascii "aps" :: params) := by
  have hlookup : deviceCommands.lookup (ascii "aps") = some Command.aps := by decide
  simp only [executeCallback, hlookup]

/-- The reply of an `aps` that got through. -/
theorem aps_done {env : Env} {params : List Bytes} (hk : d.Keyed)
    (hdev : (w.conns k).device = some a) (hd : w.heap a = some d)
    (hn : d.namesPorts env.junk 0 params = true) :
    executeCallback env w k (ascii "aps") params = .ok (.done
      ((w.store a (commands.apsLoop env.junk 0 params d).1).send k (ascii "200 OK"))) := by
  rw [executeCallback_aps]
  cases params with
  | nil =>
      have hstore : w.store a d = w := by rw [store, ← hd, Function.update_eq_self]
      show Except.ok (Outcome.done (w.send k _)) = .ok (.done ((w.store a d).send k _))
      rw [hstore]
  | cons param params =>
      rw [callback_aps_eq env _ hdev hd (List.cons_ne_nil _ _), DeviceState.apsLoop_snd hk, if_pos hn]

/-- The end of an `aps` that found a port missing. -/
theorem aps_stopped {env : Env} {params : List Bytes} (hk : d.Keyed)
    (hdev : (w.conns k).device = some a) (hd : w.heap a = some d)
    (hn : d.namesPorts env.junk 0 params = false) :
    ∃ w', executeCallback env w k (ascii "aps") params = .ok (.done w') ∧
      w'.heap = (w.store a (commands.apsLoop env.junk 0 params d).1).heap ∧
      w'.conns k = { (w.conns k).send (ascii "400 Bad Request") with socketOpen := false } := by
  have hne : params ≠ [] := by
    intro hnil
    subst hnil
    cases hn
  let w₁ := (w.store a (commands.apsLoop env.junk 0 params d).1).send k (ascii "400 Bad Request")
  have hconn : w₁.conns k = (w.conns k).send (ascii "400 Bad Request") := updConn_self _ k _
  have hdev₁ : (w₁.conns k).device = some a := by
    rw [hconn, DeviceConnection.send_device, hdev]
  have hclose : ∃ w', w₁.close k = .ok w' := by
    cases hs : (w₁.conns k).sessionStarted with
    | false => exact ⟨_, close_idle hs⟩
    | true => exact ⟨_, close_started hs hdev₁ (Function.update_self a _ _)⟩
  obtain ⟨w', hw'⟩ := hclose
  obtain ⟨hheap, hconn'⟩ := close_frame hw'
  refine ⟨w', ?_, hheap, by rw [hconn', hconn]⟩
  rw [executeCallback_aps, callback_aps_eq env _ hdev hd hne, DeviceState.apsLoop_snd hk, hn]
  show (do return Outcome.done (← w₁.close k)) = _
  rw [hw']
  rfl

/-- What a report does to a world: the ports of the device take their last values. -/
structure Reported (w : World) (k : ConnId) (a : Addr) (targets : List (Int32 × Int32))
    (w' : World) : Prop where
  ports : ∀ d, w.heap a = some d → ∃ d', w'.heap a = some d' ∧ ∀ id, d'.port id =
    (d.port id).map fun p => { p with value := lastValue targets id p.value }
  devices : ∀ b, b ≠ a → w'.heap b = w.heap b
  registry : w'.activeDevices = w.activeDevices
  reply : w'.conns k = (w.conns k).send (ascii "200 OK")
  connections : ∀ j, j ≠ k → w'.conns j = w.conns j
  events : w'.events = w.events

/-- An `aps` whose parameters all assign to ports of the device is one update of these ports, the
    last value of each winning. No event is published, and the reply is the only message to any
    connection. -/
theorem aps_assigns {env : Env} {params : List Bytes} {targets : List (Int32 × Int32)}
    (hk : d.Keyed) (hdev : (w.conns k).device = some a) (hd : w.heap a = some d)
    (hparams : List.Forall₂ (fun param t => Assigns param t.1.toInt t.2.toInt) params targets)
    (hports : ∀ t ∈ targets, (d.port t.1).isSome = true) :
    ∃ w', executeCallback env w k (ascii "aps") params = .ok (.done w') ∧
      Reported w k a targets w' := by
  obtain ⟨hwrites, hnames⟩ := apsWrites_assigns hparams hports env.junk 0
  refine ⟨_, aps_done hk hdev hd hnames, ?_, ?_, rfl, ?_, ?_, rfl⟩
  · intro e he
    rw [hd] at he
    cases he
    refine ⟨_, Function.update_self a _ _, fun id => ?_⟩
    rw [WatchedDevice.port_apsLoop hk, hwrites]
    simp only [valueAfter_eq]
  · intro b hb
    exact Function.update_of_ne hb _ _
  · rw [send, updConn_self]
    rfl
  · intro j hj
    rw [send, updConn_ne _ _ _ hj]
    rfl

/-! ## 4. A meter that reports -/

/-- A device with two ports, in its session. -/
def metered : DeviceState :=
  .new { id := 5, specifications := { ports := ((∅ : Ports).insert 3 { id := 3 }).insert 4 { id := 4 } } }

def meteredWorld : World where
  conns _ := { device := some 0, sessionStarted := true, loggedIn := true, socketOpen := true }
  nextConn := 1
  heap := Function.update (fun _ => none) 0 (some metered)
  nextAddr := 1
  activeDevices := (∅ : Std.ExtTreeMap Int32 Addr).insert 5 0

theorem numeral_digit (c : UInt8) (h : isDigit c = true) : Numeral [c] (c.toNat - 48 : Nat) :=
  .plain [c] _ (by simp) (by simpa using h) (by simp)

/-- It reports a port twice, the other in between. -/
theorem aps_assigns_metered : ∃ w', executeCallback (answering []) meteredWorld 0 (ascii "aps")
      [ascii "3:1,", ascii "4:2,", ascii "3:7"] = .ok (.done w') ∧
    Reported meteredWorld 0 0 [(3, 1), (4, 2), (3, 7)] w' := by
  have hthree : (metered.port 3).isSome = true := by decide
  have hfour : (metered.port 4).isSome = true := by decide
  refine aps_assigns (d := metered) (DeviceState.keyed_new _) rfl rfl ?_ (by simp [hthree, hfour])
  refine .cons ?_ (.cons ?_ (.cons ?_ .nil))
  · exact ⟨_, _, numeral_digit 51 (by decide), numeral_digit 49 (by decide), Or.inr rfl⟩
  · exact ⟨_, _, numeral_digit 52 (by decide), numeral_digit 50 (by decide), Or.inr rfl⟩
  · exact ⟨_, _, numeral_digit 51 (by decide), numeral_digit 55 (by decide), Or.inl rfl⟩

/-! ## 5. Refusals -/

/-- The command is refused without a trace: the reply, the closed socket, and every port's value as
    it was. -/
def Refused (env : Env) (w : World) (k : ConnId) (a : Addr) (d : DeviceState)
    (params : List Bytes) : Prop :=
  ∃ w' d', executeCallback env w k (ascii "aps") params = .ok (.done w') ∧
    (w'.conns k).sent =
      (w.conns k).sent ++ [((w.conns k).sessionStarted, ascii "400 Bad Request")] ∧
    (w'.conns k).socketOpen = false ∧ w'.heap a = some d' ∧
    ∀ id, d'.valueOf id = d.valueOf id

/-- The scan stops at a port the device does not have, and what it writes on the way leaves every
    port with its value. -/
def StopsUnchanged (d : DeviceState) (junk : Nat → Int32 × Int32) (params : List Bytes) : Prop :=
  d.namesPorts junk 0 params = false ∧ ∀ id p, d.port id = some p →
    WatchedDevice.valueAfter (WatchedDevice.apsWrites d junk 0 params) id p.value = p.value

theorem valueOf_apsLoop (hk : d.Keyed) (junk : Nat → Int32 × Int32) (params : List Bytes) :
    (∀ id, (commands.apsLoop junk 0 params d).1.valueOf id = d.valueOf id) ↔
      ∀ id p, d.port id = some p →
        WatchedDevice.valueAfter (WatchedDevice.apsWrites d junk 0 params) id p.value = p.value := by
  refine forall_congr' fun id => ?_
  rw [DeviceState.valueOf, DeviceState.valueOf, WatchedDevice.port_apsLoop hk]
  cases d.port id with
  | none => simp
  | some p => simp

theorem refused_iff {env : Env} {params : List Bytes} (hk : d.Keyed)
    (hdev : (w.conns k).device = some a) (hd : w.heap a = some d) :
    Refused env w k a d params ↔ StopsUnchanged d env.junk params := by
  rw [StopsUnchanged, ← valueOf_apsLoop hk]
  cases hn : d.namesPorts env.junk 0 params with
  | true =>
      refine iff_of_false ?_ (by simp)
      intro h
      obtain ⟨w', d', hrun, hsent, -⟩ := h
      rw [aps_done hk hdev hd hn] at hrun
      cases hrun
      rw [send, updConn_self, DeviceConnection.send_sent] at hsent
      have hreply := List.append_cancel_left hsent
      exact absurd hreply (by simp [ascii])
  | false =>
      obtain ⟨w', hrun, hheap, hconn⟩ := aps_stopped hk hdev hd hn
      have hstored : w'.heap a = some (commands.apsLoop env.junk 0 params d).1 := by
        rw [hheap]
        exact Function.update_self a _ _
      constructor
      · intro h
        obtain ⟨w'', d', hrun', -, -, hd', hvalues⟩ := h
        rw [hrun] at hrun'
        cases hrun'
        rw [hstored] at hd'
        cases hd'
        exact ⟨rfl, hvalues⟩
      · intro h
        refine ⟨w', _, hrun, ?_, ?_, hstored, h.2⟩
        · rw [hconn]
          exact DeviceConnection.send_sent _ _
        · rw [hconn]

/-- A failing `aps` is refused without a trace exactly when the scan stops and has changed nothing:
    a parameter of another form does not stop it where `sscanf` and the uninitialised locals give
    the id of a port, and what was assigned before it stops stays assigned. -/
theorem aps_refused_iff (env : Env) (params : List Bytes) (hk : d.Keyed)
    (hdev : (w.conns k).device = some a) (hd : w.heap a = some d) :
    (Failing d params → Refused env w k a d params) ↔
      (Failing d params → StopsUnchanged d env.junk params) :=
  imp_congr_right fun _ => refused_iff hk hdev hd

theorem aps_refused_iff_metered :
    (Failing metered [ascii "3:1", ascii "x"] →
        Refused (answering []) meteredWorld 0 0 metered [ascii "3:1", ascii "x"]) ↔
      (Failing metered [ascii "3:1", ascii "x"] →
        StopsUnchanged metered (fun _ => (0, 0)) [ascii "3:1", ascii "x"]) :=
  aps_refused_iff (answering []) [ascii "3:1", ascii "x"] (DeviceState.keyed_new _) rfl rfl

/-- The second parameter is refused, the first stays assigned. -/
theorem not_refused_metered :
    ¬ ∀ (env : Env) (w : World) (k : ConnId) (a : Addr) (d : DeviceState) (params : List Bytes),
      d.Keyed → (w.conns k).device = some a → w.heap a = some d → Failing d params →
        Refused env w k a d params := by
  intro h
  have hk : metered.Keyed := DeviceState.keyed_new _
  have hfailing : Failing metered [ascii "3:1", ascii "x"] := by
    refine ⟨ascii "x", by simp, ?_⟩
    intro hassigns
    obtain ⟨id, value, hassigns, -⟩ := hassigns
    exact absurd hassigns.colon (by decide)
  have hrefused := h (answering []) meteredWorld 0 0 metered _ hk rfl rfl hfailing
  obtain ⟨-, hvalues⟩ := (refused_iff hk rfl rfl).mp hrefused
  obtain ⟨p, hp, hvalue⟩ : ∃ p, metered.port 3 = some p ∧ p.value = -1 := by decide
  have hkept := hvalues 3 p hp
  rw [hvalue] at hkept
  exact absurd hkept (by decide)

end World

end Domoio
