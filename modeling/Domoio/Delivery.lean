import Domoio.Agreement

/-
  File:      Domoio/Delivery.lean
  Subject:   `set` messages: from `PortState::set_value` to the connection of the device.

  A call that changes a value signals the device state; each slot of its signal sends the message on
  its connection. `create_session` makes a new state without slots, every good `login` adds one more
  slot to the state. So a call is delivered as often as the connection has logged in since its
  session was started (`delivery_exact`).
-/

namespace Domoio

open Lib

namespace World

/-! ## 1. The messages of a connection -/

/-- A message of `set_value`. -/
def isSetMessage (m : Bytes) : Bool := m.take 4 = ascii "set "

/-- The `set` messages sent on a connection, in order. -/
def setMessages (c : DeviceConnection) : List Bytes := (c.sent.map Prod.snd).filter isSetMessage

/-- How many slots of the device state at `a` lead to connection `k`. -/
def slotsOf (w : World) (k : ConnId) (a : Addr) : Nat :=
  match w.heap a with
  | some d => d.networkSignals.countP fun s => s.2 = k
  | none => 0

theorem isSetMessage_setMessage (id v : Int32) : isSetMessage (setMessage id v) = true := by
  simp [isSetMessage, setMessage, ascii]

theorem hexDigit_ne_s : ∀ n < 16, hexDigit n ≠ 115 := by decide

theorem mem_hexText_ne_s {b : Bytes} : (115 : UInt8) ∉ hexText b := by
  intro h
  obtain ⟨c, -, hc⟩ := List.mem_flatMap.mp h
  have hb := c.toNat_lt
  have h1 := hexDigit_ne_s (c.toNat / 16) (by omega)
  have h2 := hexDigit_ne_s (c.toNat % 16) (by omega)
  simp only [hexGroup, List.mem_cons, List.not_mem_nil, or_false] at hc
  rcases hc with hc | hc | hc
  · exact h1 hc.symm
  · exact h2 hc.symm
  · cases hc

theorem mem_ascii_int_ne_s (n : Int) : (115 : UInt8) ∉ ascii (toString n) := by
  intro h
  obtain ⟨c, hc, heq⟩ := List.mem_map.mp h
  rcases sign_or_digit_of_mem hc with rfl | hdigit
  · exact absurd heq (by decide)
  · obtain ⟨hlo, hhi⟩ := isDigit_bounds hdigit
    have hval := congrArg UInt8.toNat heq
    simp only [UInt8.toNat_ofNat'] at hval
    have hs : (115 : UInt8).toNat = 115 := rfl
    omega

/-- What begins a session is no `set` message: it has hex digits, blanks and decimal digits. -/
theorem not_isSetMessage_sessionString (cipher : BlockCipher) (clock : Int) :
    isSetMessage (cString (cipher.sessionString clock)) = false := by
  by_contra h
  have htake : (cString (cipher.sessionString clock)).take 4 = ascii "set " := by
    simpa [isSetMessage] using h
  have hmem : (115 : UInt8) ∈ (cString (cipher.sessionString clock)).take 4 := by
    rw [htake]
    decide
  have hmem' : (115 : UInt8) ∈ cipher.sessionString clock :=
    (List.takeWhile_sublist _).subset (List.mem_of_mem_take hmem)
  rw [BlockCipher.sessionString, cString_hexEncode] at hmem'
  rcases List.mem_append.mp hmem' with h1 | h1
  · exact mem_hexText_ne_s h1
  · exact mem_ascii_int_ne_s _ h1

@[simp] theorem setMessages_send (c : DeviceConnection) (msg : Bytes) :
    setMessages (c.send msg) = setMessages c ++ if isSetMessage msg then [msg] else [] := by
  simp only [setMessages, DeviceConnection.send_sent, List.map_append, List.map_singleton,
    List.filter_append, List.filter_singleton]
  cases isSetMessage msg <;> rfl

/-! ## 2. What a command that returns has done -/

variable {w w' w'' : World} {k j : ConnId} {env : Env} {a : Addr}

/-- The device state with one more slot, which leads to connection `k`. -/
def withSlot (d : DeviceState) (k : ConnId) : DeviceState :=
  { d with networkSignals := d.networkSignals ++ [(d.nextSlot, k)], nextSlot := d.nextSlot + 1 }

/-- The connection after its good login. -/
def loggedInConn (a : Addr) (slot : Nat) (c : DeviceConnection) : DeviceConnection :=
  { c with loggedIn := true, deviceSignalsConn := some (a, slot) }

theorem login_good {d : DeviceState} (hd : (w.conns k).device = some a) (hh : w.heap a = some d)
    {passwd : Bytes} (hpw : cString passwd = ascii "1234") :
    w.login k passwd =
      .ok ((w.store a (withSlot d k)).updConn k (loggedInConn a d.nextSlot), true) := by
  have hh' : (w.updConn k fun c => { c with loggedIn := true }).heap a = some d := hh
  simp only [login, if_pos hpw, registerDeviceSignals, World.deref, updConn_self, hd, hh']
  show Except.ok (((w.updConn k _).store a (withSlot d k)).updConn k _, true) = _
  simp only [updConn, store, Function.update_self, Function.update_idem]
  rfl

/-- What a command that returns has done: the world it has made, and whether it ends by closing the
    connection there. -/
inductive Performed (env : Env) (w : World) (k : ConnId) (params : List Bytes) :
    Command → World → Bool → Prop
  | opened {d : Device} (hl : env.loadFromDb (atoi (params.headD [])) = some d) :
      Performed env w k params .createSession (opened env w k d) false
  | notFound (hl : env.loadFromDb (atoi (params.headD [])) = none) :
      Performed env w k params .createSession
        ((w.updConn k fun c => { c with device := w.find (atoi (params.headD [])) }).send k
          (ascii "406 Not Acceptable")) true
  | welcome {a : Addr} {d : DeviceState} (hpw : cString (params.headD []) = ascii "1234")
      (hd : (w.conns k).device = some a) (hh : w.heap a = some d) :
      Performed env w k params .login
        (((w.store a (withSlot d k)).updConn k (loggedInConn a d.nextSlot)).send k
          (ascii "200 WELCOME")) false
  | badLogin (hpw : cString (params.headD []) ≠ ascii "1234") :
      Performed env w k params .login (w.send k (ascii "BAD LOGIN")) true
  | noPorts (hp : params = []) :
      Performed env w k params .aps (w.send k (ascii "200 OK")) false
  | ports {a : Addr} {d : DeviceState} (hp : params ≠ []) (hd : (w.conns k).device = some a)
      (hh : w.heap a = some d) (hok : (commands.apsLoop env.junk 0 params d).2 = true) :
      Performed env w k params .aps
        ((w.store a (commands.apsLoop env.junk 0 params d).1).send k (ascii "200 OK")) false
  | unknownPort {a : Addr} {d : DeviceState} (hp : params ≠ [])
      (hd : (w.conns k).device = some a) (hh : w.heap a = some d)
      (hok : (commands.apsLoop env.junk 0 params d).2 = false) :
      Performed env w k params .aps
        ((w.store a (commands.apsLoop env.junk 0 params d).1).send k (ascii "400 Bad Request")) true
  | exit : Performed env w k params .exit w true
  | set : Performed env w k params .set (w.send k (ascii "OK")) false

/-- A handler that ends by closing the connection. -/
theorem close_of_done (hc : (do return Outcome.done (← w.close k)) = Except.ok (Outcome.done w')) :
    w.close k = .ok w' := by
  cases hclose : w.close k with
  | error e =>
      rw [hclose] at hc
      cases hc
  | ok w₁ =>
      rw [hclose] at hc
      cases hc
      rfl

/-- What a handler that returns with `w'` has done, the connection closed where it closes it. -/
def CommandDone (env : Env) (w : World) (k : ConnId) (params : List Bytes) (cmd : Command) (w' : World) :
    Prop :=
  ∃ v closes, Performed env w k params cmd v closes ∧
    if closes then v.close k = .ok w' else v = w'

theorem createSession_performs {name : Bytes} {params : List Bytes} (hp : 1 ≤ params.length)
    (hc : Command.createSession.callback env w k (name :: params) = .ok (.done w')) :
    CommandDone env w k params .createSession w' := by
  obtain ⟨arg, rest, rfl⟩ := List.exists_cons_of_length_pos hp
  simp only [Command.callback, commands.createSession, List.getElem?_cons_succ,
    List.getElem?_cons_zero] at hc
  cases hl : env.loadFromDb (atoi arg) with
  | some d =>
      rw [createSession_found hl] at hc
      cases hc
      exact ⟨_, false, .opened hl, rfl⟩
  | none =>
      rw [createSession_missing hl] at hc
      exact ⟨_, true, .notFound hl, close_of_done hc⟩

theorem login_performs (h : w.WF) {name : Bytes} {params : List Bytes} (hp : 1 ≤ params.length)
    (hc : Command.login.callback env w k (name :: params) = .ok (.done w')) :
    CommandDone env w k params .login w' := by
  obtain ⟨passwd, rest, rfl⟩ := List.exists_cons_of_length_pos hp
  simp only [Command.callback, commands.login, List.getElem?_cons_succ,
    List.getElem?_cons_zero] at hc
  by_cases hpw : cString passwd = ascii "1234"
  · cases hd : (w.conns k).device with
    | none =>
        rw [login_null hd hpw] at hc
        cases hc
    | some a =>
        obtain ⟨d, hh⟩ := h.deref hd
        rw [login_good hd hh hpw] at hc
        cases hc
        exact ⟨_, false, .welcome hpw hd hh, rfl⟩
  · rw [login_bad hpw] at hc
    exact ⟨_, true, .badLogin hpw, close_of_done hc⟩

theorem aps_performs (h : w.WF) {name : Bytes} {params : List Bytes}
    (hc : Command.aps.callback env w k (name :: params) = .ok (.done w')) :
    CommandDone env w k params .aps w' := by
  by_cases hparams : params = []
  · subst hparams
    cases hc
    exact ⟨_, false, .noPorts rfl, rfl⟩
  · cases hd : (w.conns k).device with
    | none =>
        have hreads : Command.aps.reads ≤ params.length := Nat.zero_le _
        have hnull : nullAccess env w k params .aps := ⟨hparams, hd⟩
        rw [callback_null hreads hnull] at hc
        cases hc
    | some a =>
        obtain ⟨d, hh⟩ := h.deref hd
        rw [callback_aps_eq env name hd hh hparams] at hc
        cases hok : (commands.apsLoop env.junk 0 params d).2 with
        | true =>
            rw [if_pos hok] at hc
            cases hc
            exact ⟨_, false, .ports hparams hd hh hok, rfl⟩
        | false =>
            rw [if_neg (Bool.eq_false_iff.mp hok)] at hc
            exact ⟨_, true, .unknownPort hparams hd hh hok, close_of_done hc⟩

/-- How a command returns. -/
theorem callback_performed (h : w.WF) {name : Bytes} {params : List Bytes} {cmd : Command}
    (hc : cmd.callback env w k (name :: params) = .ok (.done w')) :
    CommandDone env w k params cmd w' := by
  by_cases hp : params.length < cmd.reads
  · rw [callback_missing hp] at hc
    cases hc
  have hp' : cmd.reads ≤ params.length := Nat.le_of_not_lt hp
  cases cmd with
  | createSession => exact createSession_performs hp' hc
  | login => exact login_performs h hp' hc
  | aps => exact aps_performs h hc
  | exit => exact ⟨w, true, .exit, close_of_done hc⟩
  | set =>
      obtain ⟨_, params, rfl⟩ := List.exists_cons_of_length_pos (Nat.lt_of_lt_of_le Nat.two_pos hp')
      obtain ⟨_, rest, rfl⟩ := List.exists_cons_of_length_pos (Nat.le_of_succ_le_succ hp')
      cases hc
      exact ⟨_, false, .set, rfl⟩

/-- How a read returns: the exception of a missing parameter was caught, the request names no
    command, or its command has returned. -/
inductive Returned (env : Env) (w : World) (k : ConnId) (str : Bytes) (w' : World) : Prop
  | dropped (hm : requestMissing str)
      (hclose : (((w.logged k str).updConn k fun c => { c with sessionStarted := false }).send k
        (ascii "400 Bad Request")).close k = .ok w')
  | unknown (hc : requestCommand str = none)
      (hw : (w.logged k str).send k (ascii "400 Bad Request") = w')
  | performed {cmd : Command} {params : List Bytes} {v : World} {closes : Bool}
      (hc : requestCommand str = some (cmd, params)) (hp : cmd.reads ≤ params.length)
      (hdone : Performed env (w.logged k str) k params cmd v closes)
      (hend : if closes then v.close k = .ok w' else v = w')

theorem read_returned {chunk : Bytes} (h : w.WF) (ho : (w.conns k).isOpen = true)
    (hs : w.handleRead env k chunk = .ok w') :
    ∃ str, w.chunkRequest k chunk = some str ∧ Returned env w k str w' := by
  cases hr : w.chunkRequest k chunk with
  | none =>
      rw [read_overread hr] at hs
      cases hs
  | some str =>
      refine ⟨str, rfl, ?_⟩
      by_cases hn : requestNull env w k str
      · rw [read_null hr hn] at hs
        cases hs
      by_cases hm : requestMissing str
      · cases hst : (w.conns k).sessionStarted with
        | false =>
            rw [read_uncaught hr hm hst] at hs
            cases hs
        | true =>
            rw [read_dropped_eq hr hm hst] at hs
            exact .dropped hm hs
      obtain ⟨w₁, hw₁, -⟩ := dispatch_change h ho hm hn
      rw [read_done hr hw₁] at hs
      cases hs
      cases hc : requestCommand str with
      | none =>
          rw [dispatch_unknown hc] at hw₁
          cases hw₁
          exact .unknown hc rfl
      | some p =>
          obtain ⟨cmd, params⟩ := p
          obtain ⟨name, hname⟩ := dispatch_command w k env hc
          rw [hname] at hw₁
          have hp : cmd.reads ≤ params.length :=
            Nat.le_of_not_lt fun hlt => hm ⟨cmd, params, hc, hlt⟩
          obtain ⟨v, closes, hdone, hend⟩ := callback_performed (h.logged k str) hw₁
          exact .performed hc hp hdone hend

/-! ## 3. What leaves the wiring alone -/

/-- No `set` message is sent, nobody logs in, and no slot comes or goes. -/
structure Undisturbed (w w' : World) : Prop where
  messages : ∀ k, setMessages (w'.conns k) = setMessages (w.conns k)
  loggedIn : ∀ k, (w'.conns k).loggedIn = (w.conns k).loggedIn
  slots : ∀ k a, slotsOf w' k a = slotsOf w k a

theorem Undisturbed.refl (w : World) : Undisturbed w w := ⟨fun _ => rfl, fun _ => rfl, fun _ _ => rfl⟩

theorem Undisturbed.trans (h : Undisturbed w w') (h' : Undisturbed w' w'') : Undisturbed w w'' where
  messages k := (h'.messages k).trans (h.messages k)
  loggedIn k := (h'.loggedIn k).trans (h.loggedIn k)
  slots k a := (h'.slots k a).trans (h.slots k a)

theorem undisturbed_updConn (w : World) (k : ConnId) {f : DeviceConnection → DeviceConnection}
    (hm : setMessages (f (w.conns k)) = setMessages (w.conns k))
    (hl : (f (w.conns k)).loggedIn = (w.conns k).loggedIn) : Undisturbed w (w.updConn k f) where
  messages j := by
    by_cases hj : j = k
    · subst hj
      rw [updConn_self, hm]
    · rw [updConn_ne _ _ _ hj]
  loggedIn j := by
    by_cases hj : j = k
    · subst hj
      rw [updConn_self, hl]
    · rw [updConn_ne _ _ _ hj]
  slots _ _ := rfl

theorem undisturbed_send (w : World) (k : ConnId) (msg : Bytes) (hm : isSetMessage msg = false) :
    Undisturbed w (w.send k msg) :=
  undisturbed_updConn w k (by simp [hm]) (by simp)

theorem undisturbed_publish (w : World) (k : Option ConnId) (e : Event) :
    Undisturbed w (w.publish k e) := ⟨fun _ => rfl, fun _ => rfl, fun _ _ => rfl⟩

theorem undisturbed_store {d : DeviceState} (d' : DeviceState) (hd : w.heap a = some d)
    (hs : d'.networkSignals = d.networkSignals) : Undisturbed w (w.store a d') where
  messages _ := rfl
  loggedIn _ := rfl
  slots k b := by
    by_cases hb : b = a
    · subst hb
      simp [slotsOf, store, hd, hs]
    · simp [slotsOf, store, hb]

/-- `close`, however it goes. -/
theorem undisturbed_close (hc : w.close k = .ok w') : Undisturbed w w' := by
  have hu := undisturbed_updConn w k (f := fun c => { c with socketOpen := false }) rfl rfl
  rcases close_cases hc with rfl | ⟨x, rfl⟩
  · exact hu
  · exact hu.trans (undisturbed_publish _ _ _)

/-- A session that starts: the new state has no slots, as its address had none. -/
theorem undisturbed_opened (h : w.WF) (env : Env) (k : ConnId) (d : Device) :
    Undisturbed w (opened env w k d) where
  messages j := by
    show setMessages (((w.connect d).1.updConn k (openedConn env d w.nextAddr)).conns j) = _
    by_cases hj : j = k
    · subst hj
      rw [updConn_self]
      show setMessages (DeviceConnection.send _ _) = _
      rw [setMessages_send, not_isSetMessage_sessionString]
      simp [setMessages, connect]
    · rw [updConn_ne _ _ _ hj]
      rfl
  loggedIn j := by
    show (((w.connect d).1.updConn k (openedConn env d w.nextAddr)).conns j).loggedIn = _
    by_cases hj : j = k
    · subst hj
      simp [openedConn, connect]
    · rw [updConn_ne _ _ _ hj]
      rfl
  slots j b := by
    by_cases hb : b = w.nextAddr
    · subst hb
      have hnone : w.heap w.nextAddr = none := by
        have hi := h.sessions.ident_nextAddr
        exact Option.map_eq_none_iff.mp hi
      simp [slotsOf, opened, publish, updConn, connect, hnone, DeviceState.new]
    · simp [slotsOf, opened, publish, updConn, connect, hb]

/-- The request is a `login` with the right password. -/
def goodLogin (cmd : Command) (params : List Bytes) : Prop :=
  cmd = .login ∧ cString (params.headD []) = ascii "1234"

/-- A command that is not a good login leaves the wiring alone. -/
theorem undisturbed_performed (h : w.WF) {params : List Bytes} {cmd : Command} {closes : Bool}
    (hg : ¬ goodLogin cmd params) (hdone : Performed env w k params cmd w' closes) :
    Undisturbed w w' := by
  cases hdone with
  | opened => exact undisturbed_opened h env k _
  | notFound =>
      have hdevice := undisturbed_updConn w k
        (f := fun c => { c with device := w.find (atoi (params.headD [])) }) rfl rfl
      exact hdevice.trans (undisturbed_send _ k (ascii "406 Not Acceptable") (by decide))
  | welcome hpw => exact absurd ⟨rfl, hpw⟩ hg
  | badLogin => exact undisturbed_send w k _ (by decide)
  | ports _ _ hh | unknownPort _ _ hh =>
      refine (undisturbed_store _ hh ?_).trans (undisturbed_send _ k _ (by decide))
      rw [DeviceState.apsLoop_frame]
  | noPorts | set => exact undisturbed_send w k _ (by decide)
  | exit => exact Undisturbed.refl w

theorem slotsOf_withSlot {d : DeviceState} (hh : w.heap a = some d) (j : ConnId) (b : Addr) :
    slotsOf (w.store a (withSlot d k)) j b =
      slotsOf w j b + if j = k ∧ b = a then 1 else 0 := by
  by_cases hb : b = a
  · subst hb
    simp only [slotsOf, store, Function.update_self, hh, withSlot, List.countP_append]
    by_cases hj : j = k
    · simp [hj]
    · simp [hj, Ne.symm hj]
  · simp [slotsOf, store, hb]

/-- A good login on connection `j`, seen from connection `k`. -/
theorem welcome_effect {d : DeviceState} (hh : w.heap a = some d) (j k : ConnId) :
    let w' := ((w.store a (withSlot d j)).updConn j (loggedInConn a d.nextSlot)).send j
      (ascii "200 WELCOME")
    setMessages (w'.conns k) = setMessages (w.conns k) ∧
      (w'.conns k).loggedIn = ((w.conns k).loggedIn || decide (k = j)) ∧
      ∀ b, slotsOf w' k b = slotsOf w k b + if k = j ∧ b = a then 1 else 0 := by
  refine ⟨?_, ?_, fun b => slotsOf_withSlot hh k b⟩
  · by_cases hk : k = j
    · subst hk
      rw [send_self, setMessages_send, updConn_self]
      have hw : isSetMessage (ascii "200 WELCOME") = false := by decide
      rw [hw]
      simp [setMessages, loggedInConn, store]
    · rw [send_ne _ _ _ hk, updConn_ne _ _ _ hk]
      rfl
  · by_cases hk : k = j
    · subst hk
      simp [loggedInConn]
    · rw [send_ne _ _ _ hk, updConn_ne _ _ _ hk]
      simp [hk, store]

/-! ## 4. Steps -/

/-- The action is a good login on connection `k`. -/
def isGoodLogin (k : ConnId) (w : World) : Action → Bool
  | .read j chunk _ =>
      match (w.chunkRequest j chunk).bind requestCommand with
      | some (.login, passwd :: _) => j = k && cString passwd = ascii "1234"
      | _ => false
  | _ => false

theorem isGoodLogin_iff {chunk str : Bytes} (hr : w.chunkRequest j chunk = some str) :
    isGoodLogin k w (.read j chunk env) = true ↔ j = k ∧ ∃ cmd params,
      requestCommand str = some (cmd, params) ∧ cmd.reads ≤ params.length ∧ goodLogin cmd params := by
  simp only [isGoodLogin, hr, Option.bind_some]
  constructor
  · intro h
    split at h
    · rename_i passwd rest hc
      obtain ⟨hj, hpw⟩ := Bool.and_eq_true_iff.mp h
      exact ⟨of_decide_eq_true hj, .login, passwd :: rest, hc, Nat.succ_le_succ (Nat.zero_le _), rfl,
        of_decide_eq_true hpw⟩
    · cases h
  · intro hex
    rcases hex with ⟨rfl, cmd, params, hc, hp, rfl, hpw⟩
    obtain ⟨passwd, rest, rfl⟩ := List.exists_cons_of_length_pos hp
    have hpw' : cString passwd = ascii "1234" := hpw
    simp [hc, hpw']

/-- A good login is a read on its connection. -/
theorem isGoodLogin_read {act : Action} (hg : isGoodLogin k w act = true) :
    ∃ chunk env, act = .read k chunk env := by
  cases act with
  | read j chunk env =>
      cases hr : w.chunkRequest j chunk with
      | none => simp [isGoodLogin, hr] at hg
      | some str =>
          obtain ⟨rfl, -⟩ := (isGoodLogin_iff hr).mp hg
          exact ⟨chunk, env, rfl⟩
  | accept | acceptError | readError | written | httpSetPort | jsSetPortValue => cases hg

theorem isGoodLogin_ne {chunk : Bytes} (hj : j ≠ k) :
    isGoodLogin k w (.read j chunk env) = false := by
  by_contra hg
  obtain ⟨_, _, hread⟩ := isGoodLogin_read (Bool.not_eq_false _ ▸ hg)
  cases hread
  exact hj rfl

theorem undisturbed_logged (w : World) (k : ConnId) (str : Bytes) :
    Undisturbed w (w.logged k str) := undisturbed_updConn w k rfl rfl

/-- Reading a chunk that is no good login leaves the wiring alone. -/
theorem undisturbed_read {chunk : Bytes} (h : w.WF) (ho : (w.conns j).isOpen = true)
    (hg : isGoodLogin j w (.read j chunk env) = false)
    (hs : w.step (.read j chunk env) = .ok w') : Undisturbed w w' := by
  obtain ⟨str, hr, hreturned⟩ := read_returned h ho hs
  have hl := undisturbed_logged w j str
  refine hl.trans ?_
  cases hreturned with
  | dropped _ hclose =>
      have hu := undisturbed_updConn (w.logged j str) j
        (f := fun c => { c with sessionStarted := false }) rfl rfl
      exact (hu.trans (undisturbed_send _ j _ (by decide))).trans (undisturbed_close hclose)
  | unknown _ hw => exact hw ▸ undisturbed_send _ j _ (by decide)
  | @performed cmd params v closes hc hp hdone hend =>
      have hgood : ¬ goodLogin cmd params := by
        intro hgood
        rw [(isGoodLogin_iff hr).mpr ⟨rfl, cmd, params, hc, hp, hgood⟩] at hg
        cases hg
      have hv := undisturbed_performed (h.logged j str) hgood hdone
      cases closes with
      | false => exact hend ▸ hv
      | true => exact hv.trans (undisturbed_close hend)

/-- A good login on connection `j`, seen from connection `k`. -/
theorem goodLogin_step {chunk : Bytes} (h : w.WF) (ho : (w.conns j).isOpen = true)
    (hg : isGoodLogin j w (.read j chunk env) = true) (hs : w.step (.read j chunk env) = .ok w')
    (k : ConnId) :
    ∃ a, (w.conns j).device = some a ∧ setMessages (w'.conns k) = setMessages (w.conns k) ∧
      (w'.conns k).loggedIn = ((w.conns k).loggedIn || decide (k = j)) ∧
      ∀ b, slotsOf w' k b = slotsOf w k b + if k = j ∧ b = a then 1 else 0 := by
  obtain ⟨str, hr, hreturned⟩ := read_returned h ho hs
  obtain ⟨-, cmd, params, hc, hp, rfl, hpw⟩ := (isGoodLogin_iff hr).mp hg
  cases hreturned with
  | dropped hm =>
      obtain ⟨cmd', params', hc', hlt⟩ := hm
      rw [hc] at hc'
      cases hc'
      exact absurd hlt (Nat.not_lt.mpr hp)
  | unknown hc' =>
      rw [hc] at hc'
      cases hc'
  | performed hc' _ hdone hend =>
      rw [hc] at hc'
      cases hc'
      cases hdone with
      | badLogin hbad => exact absurd hpw hbad
      | @welcome a d _ hd hh =>
          cases hend
          rw [logged_self] at hd
          have hl := undisturbed_logged w j str
          obtain ⟨h1, h2, h3⟩ := welcome_effect hh j k
          refine ⟨a, hd, h1.trans (hl.messages k), ?_, fun b => ?_⟩
          · rw [h2, hl.loggedIn]
          · rw [h3, hl.slots]

/-- The signal of a `set` message: every slot sends it on its connection. -/
theorem setMessages_signal (w : World) (slots : List (Nat × ConnId)) {msg : Bytes}
    (hm : isSetMessage msg = true) (k : ConnId) :
    setMessages ((w.signal slots msg).conns k) =
      setMessages (w.conns k) ++ List.replicate (slots.countP fun s => s.2 = k) msg := by
  induction slots generalizing w with
  | nil => simp [signal]
  | cons slot slots ih =>
      have htail := ih (w.send slot.2 msg)
      show setMessages (((w.send slot.2 msg).signal slots msg).conns k) = _
      rw [htail]
      by_cases hk : k = slot.2
      · subst hk
        rw [send_self, setMessages_send, hm, List.countP_cons_of_pos (by simp)]
        simp [List.replicate_succ]
      · rw [send_ne _ _ _ hk, List.countP_cons_of_neg (by simpa using Ne.symm hk)]

theorem signal_frame (w : World) (slots : List (Nat × ConnId)) (msg : Bytes) (k : ConnId) :
    ((w.signal slots msg).conns k).loggedIn = (w.conns k).loggedIn := by
  induction slots generalizing w with
  | nil => rfl
  | cons slot slots ih =>
      refine (ih (w.send slot.2 msg)).trans ?_
      by_cases hk : k = slot.2
      · subst hk
        simp
      · rw [send_ne _ _ _ hk]

/-- The call of `set_value` an action makes: the ids of the device and the port, and the value. -/
def portCall : Action → Option (Int32 × Int32 × (PortState → Int32))
  | .httpSetPort deviceId portId doc =>
      some (deviceId, portId, fun p => DeviceState.httpValue p doc)
  | .jsSetPortValue deviceId portId value junk =>
      some (deviceId, portId, fun _ => DeviceState.jsValue value junk)
  | _ => none

theorem isGoodLogin_portCall {act : Action} {call : Int32 × Int32 × (PortState → Int32)}
    (hcall : portCall act = some call) : isGoodLogin k w act = false := by
  cases act with
  | httpSetPort | jsSetPortValue => rfl
  | accept | acceptError | read | readError | written => cases hcall

/-- The port a call is on, where the call changes its value. -/
def changedPort (w : World) (deviceId portId : Int32) (value : PortState → Int32) :
    Option PortState :=
  ((w.registry deviceId).bind fun d => d.port portId).filter fun p => p.value ≠ value p

theorem step_portCall {act : Action} {x id : Int32} {value : PortState → Int32}
    (hact : portCall act = some (x, id, value)) :
    w.step act = w.setRegistered x id fun d p => d.setValue p (value p) := by
  cases act with
  | httpSetPort deviceId portId doc =>
      cases hact
      simp only [step, DeviceState.httpSetPort_eq]
  | jsSetPortValue deviceId portId v junk =>
      cases hact
      simp only [step, DeviceState.jsSetPortValue_eq]
  | accept | acceptError | read | readError | written => cases hact

/-- The signals of a call that changes a value: a virtual device is sent nothing. -/
theorem signals_setValue {d : DeviceState} {p : PortState} {v : Int32} (hv : p.value ≠ v) :
    (d.setValue p v).signals = if d.isNetworkDevice then [setMessage p.id v] else [] := by
  rw [DeviceState.setValue, if_neg hv]
  rfl

/-- What a call does to the wiring: a call that changes a value of a network device sends its
    message once for each slot, any other call sends nothing. -/
theorem setRegistered_messages (h : w.WF) {x id : Int32} {value : PortState → Int32}
    {d : DeviceState} (hx : w.find x = some a) (hh : w.heap a = some d)
    (hs : w.setRegistered x id (fun d p => d.setValue p (value p)) = .ok w') (k : ConnId) :
    setMessages (w'.conns k) = setMessages (w.conns k) ++
        (match changedPort w x id value with
        | some p => List.replicate (if d.isNetworkDevice then slotsOf w k a else 0)
            (setMessage id (value p))
        | none => []) ∧
      (w'.conns k).loggedIn = (w.conns k).loggedIn ∧ ∀ b, slotsOf w' k b = slotsOf w k b := by
  have hreg : w.registry x = some d := by simp [registry, hx, hh]
  cases hp : d.port id with
  | none =>
      rw [setRegistered_noPort hx hh hp] at hs
      cases hs
      simp [changedPort, hreg, hp]
  | some p =>
      rw [setRegistered_port hx hh hp] at hs
      cases hs
      by_cases hv : p.value = value p
      · have hchanged : changedPort w x id value = none := by
          simp [changedPort, hreg, hp, hv]
        rw [hchanged, DeviceState.setValue_of_eq d p _ false hv]
        have hu := undisturbed_store d hh rfl
        refine ⟨?_, hu.loggedIn k, fun b => hu.slots k b⟩
        rw [List.append_nil]
        exact hu.messages k
      · have hchanged : changedPort w x id value = some p := by
          simp [changedPort, hreg, hp, hv]
        rw [hchanged]
        have hid : p.id = id := h.keyed hh hp
        have hslots := DeviceState.setValue_networkSignals d p (value p) false
        obtain ⟨hconns, hheap, -⟩ := publishes_frame w (d.setValue p (value p)).events
        rw [applyEffect, signals_setValue hv, hslots]
        generalize (d.setValue p (value p)).events.foldl (fun w ev => w.publish none ev) w = w₁
          at hconns hheap
        cases hnet : d.isNetworkDevice with
        | false =>
            have hh₁ : w₁.heap a = some d := by rw [hheap, hh]
            have hu := undisturbed_store (d.setValue p (value p)).device hh₁ hslots
            refine ⟨?_, ?_, fun b => ?_⟩
            · refine (hu.messages k).trans ?_
              rw [hconns]
              simp
            · refine (hu.loggedIn k).trans ?_
              rw [hconns]
            · refine (hu.slots k b).trans ?_
              simp only [slotsOf, hheap]
        | true =>
            have hh₁ : (w₁.signal d.networkSignals (setMessage p.id (value p))).heap a = some d := by
              rw [(signal_heap_events _ _ _).1, hheap, hh]
            have hu := undisturbed_store (d.setValue p (value p)).device hh₁ hslots
            refine ⟨?_, ?_, fun b => ?_⟩
            · refine (hu.messages k).trans ?_
              show setMessages ((w₁.signal d.networkSignals (setMessage p.id (value p))).conns k) = _
              rw [setMessages_signal _ _ (isSetMessage_setMessage _ _), hconns, hid]
              simp [slotsOf, hh]
            · refine (hu.loggedIn k).trans ?_
              exact (signal_frame _ _ _ k).trans (by rw [hconns])
            · refine (hu.slots k b).trans ?_
              show slotsOf (w₁.signal d.networkSignals (setMessage p.id (value p))) k b = _
              simp only [slotsOf, signal_heap_events, hheap]

/-! ## 5. Runs -/

/-- What is kept of a run: the messages that should have been delivered so far, and how often the
    connection has logged in since its session was started. -/
structure Deliveries where
  calls : List Bytes := []
  logins : Nat := 0
  deriving DecidableEq

/-- The messages an action should deliver on connection `k`: that of a call that changes the value
    of a port, once the connection has logged in. -/
def expected (k : ConnId) (w : World) (act : Action) : List Bytes :=
  match portCall act with
  | none => []
  | some (deviceId, portId, value) =>
      match w.changedPort deviceId portId value with
      | some p => if (w.conns k).loggedIn then [setMessage portId (value p)] else []
      | none => []

/-- The logins since the session was started, after an action. -/
def loginsAfter (k : ConnId) (logins : Nat) (w : World) (act : Action) : Nat :=
  match w.change act with
  | .opened j _ _ => if j = k then 0 else logins
  | _ => if isGoodLogin k w act then logins + 1 else logins

def Deliveries.update (k : ConnId) (r : Deliveries) (w : World) (act : Action) : Deliveries where
  calls := r.calls ++ expected k w act
  logins := loginsAfter k r.logins w act

/-- The runs in question: `set_value` is called on the ports of the network device connection `k`
    has its session for, and no other connection starts a session for that device. What else happens
    is free. -/
def InDomain (k : ConnId) (w : World) (act : Action) : Prop :=
  (∀ deviceId portId value, portCall act = some (deviceId, portId, value) →
    w.HoldsNetworkSession k deviceId) ∧
  ∀ j x v, w.change act = .opened j x v → j ≠ k → ¬ w.HoldsSession k x

/-- The device server on these runs. -/
def delivery (k : ConnId) : Machine (World × Deliveries) Action Fault :=
  machine.track (InDomain k) (Deliveries.update k)

instance (w : World) (k : ConnId) (x : Int32) : Decidable (w.HoldsSession k x) :=
  decidable_of_iff ((w.sessionState k).any (fun d => d.id = x) = true) (by
    simp [HoldsSession, Option.any_eq_true])

instance (w : World) (k : ConnId) (x : Int32) : Decidable (w.HoldsNetworkSession k x) :=
  decidable_of_iff ((w.sessionState k).any (fun d => d.id = x ∧ d.isNetworkDevice) = true) (by
    simp [HoldsNetworkSession, Option.any_eq_true])

theorem inDomain_iff (k : ConnId) (w : World) (act : Action) :
    InDomain k w act ↔
      (∀ call ∈ portCall act, w.HoldsNetworkSession k call.1) ∧
        match w.change act with
        | .opened j x _ => j ≠ k → ¬ w.HoldsSession k x
        | _ => True := by
  unfold InDomain
  refine and_congr ⟨?_, ?_⟩ ?_
  · rintro h ⟨x, id, value⟩ hc
    exact h x id value hc
  · intro h x id value hc
    exact h (x, id, value) hc
  · cases w.change act with
    | opened j x v =>
        constructor
        · intro h
          exact h j x v rfl
        · intro h j' x' v' hc
          cases hc
          exact h
    | none | accepted | skipped | refused | closed | dropped | gone => simp

instance (k : ConnId) (w : World) (act : Action) : Decidable (InDomain k w act) :=
  have : Decidable (∀ call ∈ portCall act, w.HoldsNetworkSession k call.1) :=
    match portCall act with
    | none => .isTrue (by simp)
    | some call => decidable_of_iff (w.HoldsNetworkSession k call.1) (by simp)
  have : Decidable (match w.change act with
      | .opened j x _ => j ≠ k → ¬ w.HoldsSession k x
      | _ => True) :=
    match w.change act with
    | .opened j x _ => inferInstanceAs (Decidable (j ≠ k → ¬ w.HoldsSession k x))
    | .none | .accepted | .skipped | .refused _ _ | .closed _ | .dropped _ | .gone _ => .isTrue trivial
  decidable_of_iff _ (inDomain_iff k w act).symm

instance (k : ConnId) (s : World × Deliveries) (act : Action) : Decidable ((delivery k).enabled s act) :=
  inferInstanceAs (Decidable (machine.enabled s.1 act ∧ InDomain k s.1 act))

/-- The `set` messages sent on connection `k` are one for each call, in order. -/
def ExactlyOnce (k : ConnId) (s : World × Deliveries) : Prop :=
  setMessages (s.1.conns k) = s.2.calls

/-- Where a call changes a value after the login, the connection has logged in exactly once since
    its session was started. -/
def LoggedInOnce (k : ConnId) (s : World × Deliveries) (act : Action) : Prop :=
  expected k s.1 act ≠ [] → s.2.logins = 1

/-- The invariant: the messages are as they should be, a session's device is registered, and the
    logins are counted by its slots. -/
structure Wired (k : ConnId) (s : World × Deliveries) : Prop where
  wf : s.1.WF
  exact : ExactlyOnce k s
  session : ∀ {x v}, s.1.sessions.session k = some (x, v) →
    ∃ a, (s.1.conns k).device = some a ∧ s.1.find x = some a ∧ slotsOf s.1 k a = s.2.logins
  quiet : (s.1.conns k).loggedIn = false → s.2.logins = 0

section Step

variable {act : Action} {r : Deliveries}

theorem loginsAfter_opened {n : Nat} {x : Int32} {v : Bool} (hc : w.change act = .opened k x v) :
    loginsAfter k n w act = 0 := by
  simp [loginsAfter, hc]

theorem loginsAfter_other {n : Nat} (hc : ∀ x v, w.change act ≠ .opened k x v)
    (hg : isGoodLogin k w act = false) : loginsAfter k n w act = n := by
  unfold loginsAfter
  cases hch : w.change act with
  | opened j x v =>
      have hj : j ≠ k := by
        intro heq
        subst heq
        exact hc x v hch
      simp [hj]
  | none | accepted | skipped | refused | closed | dropped | gone => simp [hg]

/-- A good login makes no change to the sessions. -/
theorem change_goodLogin {chunk : Bytes} (hg : isGoodLogin j w (.read j chunk env) = true) :
    w.change (.read j chunk env) = .none := by
  cases hr : w.chunkRequest j chunk with
  | none => simp [isGoodLogin, hr] at hg
  | some str =>
      obtain ⟨-, cmd, params, hc, hp, rfl, hpw⟩ := (isGoodLogin_iff hr).mp hg
      simp only [change, hr, requestChange, hc]
      rw [if_neg (Nat.not_lt.mpr hp)]
      exact if_pos hpw

/-- Every action but a call and a good login leaves the wiring alone. -/
theorem undisturbed_step (h : w.WF) (he : w.enabled act) (hs : w.step act = .ok w')
    (hcall : portCall act = none) (hg : ∀ j, isGoodLogin j w act = false) : Undisturbed w w' := by
  cases act with
  | accept =>
      cases hs
      have hu : Undisturbed w (w.updConn w.nextConn DeviceConnection.start) := by
        refine undisturbed_updConn w w.nextConn ?_ ?_
        · rw [DeviceConnection.start, setMessages_send]
          have hm : isSetMessage (ascii "Hey, protocol=1.0") = false := by decide
          simp [hm, setMessages]
        · simp [DeviceConnection.start]
      exact ⟨hu.messages, hu.loggedIn, hu.slots⟩
  | acceptError =>
      rw [step, acceptError_eq h] at hs
      cases hs
      exact ⟨fun _ => rfl, fun _ => rfl, fun _ _ => rfl⟩
  | read j chunk env => exact undisturbed_read h he.1 (hg j) hs
  | readError j e =>
      cases hs
      exact undisturbed_updConn w j rfl rfl
  | written j =>
      cases hs
      refine undisturbed_updConn w j ?_ ?_
      · rw [DeviceConnection.handleWrite_frame]
        rfl
      · rw [DeviceConnection.handleWrite_frame]
  | httpSetPort | jsSetPortValue => cases hcall

/-- The messages an action delivers on connection `k`, where it has `n` slots. -/
def delivered (n : Nat) (w : World) (act : Action) : List Bytes :=
  match portCall act with
  | none => []
  | some (deviceId, portId, value) =>
      match w.changedPort deviceId portId value with
      | some p => List.replicate n (setMessage portId (value p))
      | none => []

/-- What a step does to everything of the invariant but the exactness. -/
structure WiredStep (k : ConnId) (w : World) (r : Deliveries) (act : Action) (w' : World) :
    Prop where
  wf : w'.WF
  messages : setMessages (w'.conns k) = setMessages (w.conns k) ++ delivered r.logins w act
  session : ∀ {x v}, w'.sessions.session k = some (x, v) → ∃ a, (w'.conns k).device = some a ∧
    w'.find x = some a ∧ slotsOf w' k a = loginsAfter k r.logins w act
  quiet : (w'.conns k).loggedIn = false → loginsAfter k r.logins w act = 0

/-- An action that leaves the wiring alone. -/
theorem wiredStep_undisturbed (hJ : Wired k (w, r)) (hst : Stepped w act w')
    (hdom : InDomain k w act) (hu : Undisturbed w w') (hcall : portCall act = none)
    (hg : isGoodLogin k w act = false) : WiredStep k w r act w' where
  wf := hst.wf
  messages := by simp [hu.messages, delivered, hcall]
  session {x v} hs := by
    rw [hst.sessions] at hs
    rcases Sessions.session_apply hJ.wf.sessions hst.admitted hs with hc | ⟨hs₀, hconn, hne, hreg⟩
    · -- a session that starts
      have hdevice : (w'.conns k).device = some w.nextAddr := by
        have hlink : w'.sessions.conn k = (w.sessions.apply (w.change act)).conn k := by
          rw [hst.sessions]
        rw [hc] at hlink
        have hdev := congrArg Link.device hlink
        simpa [sessions, Sessions.apply, DeviceConnection.link] using hdev
      have hfind : w'.find x = some w.nextAddr := by
        have hreg : w'.sessions.registry x = (w.sessions.apply (w.change act)).registry x := by
          rw [hst.sessions]
        rw [hc] at hreg
        simpa [sessions, Sessions.apply] using hreg
      have hnone : w.heap w.nextAddr = none :=
        Option.map_eq_none_iff.mp hJ.wf.sessions.ident_nextAddr
      refine ⟨w.nextAddr, hdevice, hfind, ?_⟩
      rw [hu.slots, loginsAfter_opened hc]
      simp [slotsOf, hnone]
    · obtain ⟨a, hd, hf, hn⟩ := hJ.session hs₀
      have hdevice : (w'.conns k).device = some a := by
        have hlink : w'.sessions.conn k = w.sessions.conn k := by rw [hst.sessions, hconn]
        exact (congrArg Link.device hlink).trans hd
      have hfind : w'.find x = some a := by
        rcases hreg with hreg | ⟨j, u, hjk, hc⟩
        · have hreg' : w'.sessions.registry x = w.sessions.registry x := by rw [hst.sessions, hreg]
          exact hreg'.trans hf
        · exact absurd (holdsSession_iff.mpr ⟨v, hs₀⟩) (hdom.2 j x u hc hjk)
      exact ⟨a, hdevice, hfind, by rw [hu.slots, hn, loginsAfter_other hne hg]⟩
  quiet hl := by
    rw [hu.loggedIn] at hl
    have h0 := hJ.quiet hl
    by_cases hc : ∃ x v, w.change act = .opened k x v
    · obtain ⟨x, v, hc⟩ := hc
      exact loginsAfter_opened hc
    · push Not at hc
      rw [loginsAfter_other hc hg]
      exact h0

/-- An action that makes no change to the sessions. -/
theorem session_of_none (hJ : Wired k (w, r)) (hst : Stepped w act w')
    (hc : w.change act = .none) {x : Int32} {v : Bool}
    (hs : w'.sessions.session k = some (x, v)) : ∃ a, (w.conns k).device = some a ∧
      (w'.conns k).device = some a ∧ w'.find x = some a ∧ slotsOf w k a = r.logins := by
  have heq : w'.sessions = w.sessions := by rw [hst.sessions, hc]; rfl
  rw [heq] at hs
  obtain ⟨a, hd, hf, hn⟩ := hJ.session hs
  have hlink : w'.sessions.conn k = w.sessions.conn k := by rw [heq]
  have hreg : w'.sessions.registry x = w.sessions.registry x := by rw [heq]
  exact ⟨a, hd, (congrArg Link.device hlink).trans hd, hreg.trans hf, hn⟩

/-- A call on the port of a device that is in session. -/
theorem wiredStep_portCall (hJ : Wired k (w, r)) (hst : Stepped w act w') (hdom : InDomain k w act)
    (hs : w.step act = .ok w') {x id : Int32} {value : PortState → Int32}
    (hcall : portCall act = some (x, id, value)) : WiredStep k w r act w' := by
  have hc : w.change act = .none := by
    cases act with
    | httpSetPort | jsSetPortValue => rfl
    | accept | acceptError | read | readError | written => cases hcall
  have hg : isGoodLogin k w act = false := isGoodLogin_portCall hcall
  have hlogins : loginsAfter k r.logins w act = r.logins :=
    loginsAfter_other (fun y v => by rw [hc]; simp) hg
  -- the call is on the device of the session
  have hsession := holdsNetworkSession_iff.mp (hdom.1 x id value hcall)
  obtain ⟨d, hd, -, hnet⟩ := hdom.1 x id value hcall
  obtain ⟨a, hdev, hfind, hn⟩ := hJ.session hsession
  obtain ⟨ho, hstarted, -⟩ := Sessions.session_eq_some.mp hsession
  have hh : w.heap a = some d := by
    have hstate : w.sessionState k = (w.conns k).device.bind w.heap :=
      if_pos (Bool.and_eq_true_iff.mpr ⟨ho, hstarted⟩)
    rw [hstate, hdev] at hd
    exact hd
  rw [step_portCall hcall] at hs
  obtain ⟨hm, hl, hslots⟩ := setRegistered_messages hJ.wf hfind hh hs k
  refine ⟨hst.wf, ?_, ?_, ?_⟩
  · rw [hm, hnet, if_pos rfl, hn]
    simp only [delivered, hcall]
  · intro y v hy
    obtain ⟨b, hb, hb', hf, hnb⟩ := session_of_none hJ hst hc hy
    exact ⟨b, hb', hf, by rw [hslots, hnb, hlogins]⟩
  · intro hl'
    rw [hlogins]
    exact hJ.quiet (hl ▸ hl')

/-- A login that is welcomed wires one slot more, for its own connection. -/
theorem wiredStep_login (hJ : Wired k (w, r)) {i : ConnId} {chunk : Bytes} {env : Env}
    (hst : Stepped w (.read i chunk env) w') (ho : (w.conns i).isOpen = true)
    (hi : isGoodLogin i w (.read i chunk env) = true) (hs : w.step (.read i chunk env) = .ok w') :
    WiredStep k w r (.read i chunk env) w' := by
  have hc := change_goodLogin hi
  obtain ⟨a, hdev, hm, hl, hslots⟩ := goodLogin_step hJ.wf ho hi hs k
  have hlogins : loginsAfter k r.logins w (.read i chunk env) =
      r.logins + if k = i then 1 else 0 := by
    by_cases hk : k = i
    · subst hk
      simp [loginsAfter, hc, hi]
    · rw [loginsAfter_other (fun x v => by rw [hc]; simp) (isGoodLogin_ne (Ne.symm hk)),
        if_neg hk]
      rfl
  refine ⟨hst.wf, ?_, ?_, ?_⟩
  · rw [hm]
    simp [delivered, portCall]
  · intro y v hy
    obtain ⟨b, hb, hb', hf, hnb⟩ := session_of_none hJ hst hc hy
    refine ⟨b, hb', hf, ?_⟩
    rw [hslots, hnb, hlogins]
    by_cases hk : k = i
    · subst hk
      rw [hdev] at hb
      cases hb
      simp
    · simp [hk]
  · intro hl'
    rw [hl] at hl'
    have hk : k ≠ i := by
      intro heq
      subst heq
      simp at hl'
    rw [hlogins, if_neg hk]
    exact hJ.quiet (by simpa [hk] using hl')

/-- A step on such a run. -/
theorem wiredStep (hJ : Wired k (w, r)) (he : w.enabled act) (hdom : InDomain k w act)
    (hs : w.step act = .ok w') : WiredStep k w r act w' := by
  have hst := step_change hJ.wf he hs
  cases hcall : portCall act with
  | some call => exact wiredStep_portCall hJ hst hdom hs hcall
  | none =>
      by_cases hg : ∃ j, isGoodLogin j w act = true
      · obtain ⟨i, hi⟩ := hg
        obtain ⟨chunk, env, rfl⟩ := isGoodLogin_read hi
        exact wiredStep_login hJ hst he.1 hi hs
      · push Not at hg
        have hg' : ∀ j, isGoodLogin j w act = false := fun j => by simpa using hg j
        exact wiredStep_undisturbed hJ hst hdom (undisturbed_step hJ.wf he hs hcall hg') hcall (hg' k)

/-- What a step delivers is what it should where it meets the condition, and only there. -/
theorem delivered_iff (hJ : Wired k (w, r)) :
    delivered r.logins w act = expected k w act ↔ LoggedInOnce k (w, r) act := by
  unfold LoggedInOnce delivered expected
  cases portCall act with
  | none => simp
  | some call =>
      obtain ⟨x, id, value⟩ := call
      cases hp : w.changedPort x id value with
      | none => simp [hp]
      | some p =>
          cases hl : (w.conns k).loggedIn with
          | false =>
              have hquiet : r.logins = 0 := hJ.quiet hl
              simp [hp, hquiet]
          | true =>
              simp only [hp, if_true]
              constructor
              · intro h _
                simpa using congrArg List.length h
              · intro h
                rw [h (by simp)]
                rfl

end Step

theorem wired_loadVirtualDevices (devices : List Device) (k : ConnId) :
    Wired k (loadVirtualDevices devices, {}) where
  wf := wf_loadVirtualDevices devices
  exact := by
    obtain ⟨hconns, -⟩ := loadVirtualDevices_frame devices
    show setMessages ((loadVirtualDevices devices).conns k) = []
    rw [hconns k]
    rfl
  session {x v} hs := by
    obtain ⟨hconns, -⟩ := loadVirtualDevices_frame devices
    have hidle : (loadVirtualDevices devices).sessions.session k = none := by
      refine Sessions.session_of_idle ?_
      show ((loadVirtualDevices devices).conns k).sessionStarted = false
      rw [hconns k]
    rw [hidle] at hs
    cases hs
  quiet _ := rfl

/-- In such a run every call is delivered exactly once throughout exactly when the connection has,
    whenever a call changes a value after its login, logged in once since its session was
    started. -/
theorem delivery_exact {devices : List Device} {k : ConnId} {tr : List ((World × Deliveries) × Action)}
    {s : World × Deliveries} (hrun : (delivery k).Run (loadVirtualDevices devices, {}) tr s) :
    Machine.States (ExactlyOnce k) tr s ↔ Machine.Steps (LoggedInOnce k) tr := by
  refine hrun.exact (J := Wired k) (wired_loadVirtualDevices devices k) (fun _ h => h.exact) ?_ ?_
  · rintro ⟨w, r⟩ act ⟨w', r'⟩ hJ ⟨he, hdom⟩ hs hq
    obtain ⟨hs, rfl⟩ := Machine.track_step hs
    have hst := wiredStep hJ he hdom hs
    refine ⟨hst.wf, ?_, hst.session, hst.quiet⟩
    show setMessages (w'.conns k) = r.calls ++ expected k w act
    rw [hst.messages, (delivered_iff hJ).mpr hq, show setMessages (w.conns k) = r.calls from hJ.exact]
  · rintro ⟨w, r⟩ act ⟨w', r'⟩ hJ ⟨he, hdom⟩ hs hq hP
    obtain ⟨hs, rfl⟩ := Machine.track_step hs
    have hst := wiredStep hJ he hdom hs
    have hm : setMessages (w'.conns k) = r.calls ++ expected k w act := hP
    rw [hst.messages, show setMessages (w.conns k) = r.calls from hJ.exact] at hm
    exact hq ((delivered_iff hJ).mp (List.append_cancel_left hm))

/-- A device with one port. -/
def lamp : Device :=
  { id := 5, specifications := { ports := (∅ : Ports).insert 3 { id := 3, digital := true } } }

/-- It starts its session, logs in twice, and its port is set. -/
def secondLogin : List Action :=
  [.accept, .read 0 (ascii "create_session 5" ++ [0]) (answering [lamp]),
    .read 0 (hexEncode (ascii "login 1234") ++ [0]) (answering [lamp]),
    .read 0 (hexEncode (ascii "login 1234") ++ [0]) (answering [lamp]),
    .jsSetPortValue 5 3 (.boolean true) 0]

theorem delivery_exact_secondLogin : ∃ tr s,
    (delivery 0).exec [] (loadVirtualDevices [], {}) secondLogin = some (tr, s) ∧
      (Machine.States (ExactlyOnce 0) tr s ↔ Machine.Steps (LoggedInOnce 0) tr) := by
  obtain ⟨⟨tr, s⟩, he⟩ : ∃ r, (delivery 0).exec [] (loadVirtualDevices [], {}) secondLogin = some r :=
    Option.isSome_iff_exists.mp (by decide)
  exact ⟨tr, s, he, delivery_exact (Machine.Run.start.exec he)⟩

/-- The device gets the message twice. -/
theorem not_exactlyOnce_secondLogin :
    ¬ ∀ (devices : List Device) (k : ConnId) (tr : List ((World × Deliveries) × Action))
        (s : World × Deliveries), (delivery k).Run (loadVirtualDevices devices, {}) tr s →
        Machine.States (ExactlyOnce k) tr s := by
  intro h
  obtain ⟨⟨tr, s⟩, he⟩ : ∃ r, (delivery 0).exec [] (loadVirtualDevices [], {}) secondLogin = some r :=
    Option.isSome_iff_exists.mp (by decide)
  have hfinal : ((delivery 0).exec [] (loadVirtualDevices [], {}) secondLogin).all (fun r =>
      setMessages (r.2.1.conns 0) = [ascii "set 3 1", ascii "set 3 1"] ∧
        r.2.2.calls = [ascii "set 3 1"]) = true := by decide
  rw [he] at hfinal
  obtain ⟨hsent, hcalls⟩ := of_decide_eq_true hfinal
  have hexact : setMessages (s.1.conns 0) = s.2.calls := (h [] 0 tr s (Machine.Run.start.exec he)).2
  rw [hsent, hcalls] at hexact
  exact absurd hexact (by decide)

end World

end Domoio
