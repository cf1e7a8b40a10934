import Domoio.EventQueues

/-
  File:      Domoio/WebSockets.lean
  Subject:   The sessions of /api/events from connect to close
             (include/httpd.h, src/httpd/actions/http_events.cc, src/httpd/http_server.cc).

  The thread of a session is started by the constructor of its base class, `WebSocketSession`, and
  its first call is virtual. A close deletes the session through a pointer to the base class, whose
  destructor is not virtual and makes a virtual call of `stop`. `sessions_exact`: a run goes as it
  should exactly when every thread's first call falls between the constructor of `EventsSession` and
  the close, and no session whose listener is registered is closed.
-/

namespace Domoio

open Lib

/-! ## 1. Sessions -/

/-- What there is of a session: `base` while a constructor or the destructor of `WebSocketSession`
    runs, `built` once the constructor of `EventsSession` has taken over. -/
inductive SessionObject where
  | absent
  | base
  | built
  | deleted
  deriving DecidableEq

inductive SessionClass where
  | webSocketSession
  | eventsSession
  deriving DecidableEq

/-- The class whose methods a virtual call reaches. -/
def SessionObject.dispatch : SessionObject → Option SessionClass
  | .absent | .deleted => none
  | .base => some .webSocketSession
  | .built => some .eventsSession

/-- Where the thread of a session is: started and before its call of `init`, in `EventsSession::init`
    before the listener registers, in the loop, returned from it, or anywhere else. -/
inductive SessionThread where
  | none
  | started
  | init
  | looping
  | left
  | stray
  deriving DecidableEq

/-- Listener `some i` is the one of session `i`, listener `none` the JavaScript processor. `run` is
    the flag of the session's `SSEContext`. `written` and `astray` are history: the events a session
    has sent to its connection, and those it has sent through a deleted `Request`. -/
structure WebSockets (ι : Type*) where
  queues : EventQueues (Option ι) := {}
  object : ι → SessionObject := fun _ => .absent
  thread : ι → SessionThread := fun _ => .none
  run : ι → Bool := fun _ => false
  written : ι → List Event := fun _ => []
  astray : ι → List Event := fun _ => []

/-- What can happen next. `connect`, `construct` and `close` are steps of a server thread, `call`,
    `listen`, `loop` and `wake` of the session's; `queues` are those of all other threads. -/
inductive WebSocketStep (ι : Type*) where
  | connect (i : ι)
  | construct (i : ι)
  | close (i : ι)
  | call (i : ι)
  | listen (i : ι)
  | loop (i : ι)
  | wake (i : ι)
  | queues (a : EventStep (Option ι))

/-- `SSEContext::stop` notifies the consumer, the destructor disconnects the listener. -/
def EventQueues.destroy {ι : Type*} [DecidableEq ι] (q : EventQueues ι) (i : ι) : EventQueues ι :=
  let m := q.monitor i
  let notified := { m with consumer := Monitor.notified m.consumer }
  { q with listeners := q.listeners.erase i, monitor := Function.update q.monitor i notified }

/-- The return from `EventsSession::init`, which unlocks the mutex. -/
def EventQueues.leave {ι : Type*} [DecidableEq ι] (q : EventQueues ι) (i : ι) : EventQueues ι :=
  let outside := { q.monitor i with holder := .nobody, consumer := .start }
  { q with monitor := Function.update q.monitor i outside }

namespace WebSockets

variable {ι : Type*} [DecidableEq ι]

def enabled (s : WebSockets ι) : WebSocketStep ι → Prop
  | .connect i => s.object i = .absent
  | .construct i => s.object i = .base
  | .close i => s.object i = .built
  | .call i => s.thread i = .started
  | .listen i => s.thread i = .init
  | .loop i => s.thread i = .looping ∧ ¬ (s.queues.monitor (some i)).ConsumerWaits
  | .wake i => s.thread i = .looping ∧ (s.queues.monitor (some i)).consumer = .waiting
  | .queues a => s.queues.enabled a ∧ (a.own = none ∨ a.own = some none)

/-- A virtual call of `stop`. That of `EventsSession` clears the flag, notifies and deletes the
    context, which disconnects the listener. -/
def stop (s : WebSockets ι) (i : ι) : SessionClass → WebSockets ι
  | .webSocketSession => s
  | .eventsSession =>
      { s with run := Function.update s.run i false, queues := s.queues.destroy (some i) }

/-- The next step of the loop in `EventsSession::init`. Behind an event in hand it is the `send`. -/
def loop (s : WebSockets ι) (i : ι) : WebSockets ι :=
  let m := s.queues.monitor (some i)
  if m.consumer = .check ∧ s.run i = false then
    { s with thread := Function.update s.thread i .left, queues := s.queues.leave (some i) }
  else
    let s' := { s with queues := s.queues.step (.consumer (some i)) }
    if s.object i = .deleted then
      { s' with astray := Function.update s.astray i (s.astray i ++ m.inHand) }
    else { s' with written := Function.update s.written i (s.written i ++ m.inHand) }

def step (s : WebSockets ι) : WebSocketStep ι → WebSockets ι
  | .connect i =>
      { s with object := Function.update s.object i .base
               thread := Function.update s.thread i .started }
  | .construct i => { s with object := Function.update s.object i .built }
  | .close i =>
      -- the destructor of the pointer's class runs, and no other
      let s' := (SessionObject.base.dispatch).elim s (s.stop i)
      { s' with object := Function.update s.object i .deleted }
  | .call i =>
      let thread := if (s.object i).dispatch = some .eventsSession then .init else .stray
      { s with thread := Function.update s.thread i thread }
  | .listen i =>
      { s with thread := Function.update s.thread i .looping
               run := Function.update s.run i true
               queues := s.queues.step (.register (some i)) }
  | .loop i => s.loop i
  | .wake i => { s with queues := s.queues.step (.wake (some i)) }
  | .queues a => { s with queues := s.queues.step a }

/-! ## 2. What is asked of a session, and of a step -/

/-- A session goes as it should: its thread is in no other `init`; its events have been written, in
    order, or wait; when it is closed, its listener is disconnected, its thread has been told to
    leave the loop, and no event has been sent through what was deleted. -/
structure Served (s : WebSockets ι) (i : ι) : Prop where
  init : s.thread i ≠ .stray
  written : some i ∈ s.queues.listeners →
    let m := s.queues.monitor (some i)
    s.written i ++ m.inHand ++ m.queue ++ m.offered ++ EventQueues.owed s.queues.thread (some i) ++
        s.queues.posted =
      s.queues.backlog (some i) ++ s.queues.sent.drop (s.queues.since (some i))
  closed : s.object i = .deleted → some i ∉ s.queues.listeners ∧
    (s.thread i = .looping → s.run i = false) ∧ s.astray i = []

/-- The thread of a session makes its call while the session is an `EventsSession`, and goes on to
    register its listener before the session is closed; no session with a listener is closed. -/
def InTime (s : WebSockets ι) : WebSocketStep ι → Prop
  | .call i => s.object i = .built
  | .listen i => s.object i ≠ .deleted
  | .close i => some i ∉ s.queues.listeners
  | .connect _ | .construct _ | .loop _ | .wake _ | .queues _ => True

end WebSockets

/-- The server's threads, the events thread, the processor's and the sessions' threads. -/
def webSockets (ι : Type*) [DecidableEq ι] : Machine (WebSockets ι) (WebSocketStep ι) Empty where
  enabled := WebSockets.enabled
  step s a := .ok (s.step a)

instance {ι : Type*} [DecidableEq ι] (s : WebSockets ι) :
    (a : WebSocketStep ι) → Decidable ((webSockets ι).enabled s a)
  | .connect i => inferInstanceAs (Decidable (s.object i = .absent))
  | .construct i => inferInstanceAs (Decidable (s.object i = .base))
  | .close i => inferInstanceAs (Decidable (s.object i = .built))
  | .call i => inferInstanceAs (Decidable (s.thread i = .started))
  | .listen i => inferInstanceAs (Decidable (s.thread i = .init))
  | .loop i => inferInstanceAs (Decidable (s.thread i = .looping ∧
      ¬ (s.queues.monitor (some i)).ConsumerWaits))
  | .wake i => inferInstanceAs (Decidable (s.thread i = .looping ∧
      (s.queues.monitor (some i)).consumer = .waiting))
  | .queues a => inferInstanceAs (Decidable (s.queues.enabled a ∧
      (a.own = none ∨ a.own = some none)))

/-! ## 3. The invariant -/

namespace WebSockets

variable {ι : Type*} [DecidableEq ι]

/-- The invariant of a run that has been in time: the sessions with a listener are those whose
    threads are in the loop, and they have not been closed. -/
structure Regular (s : WebSockets ι) : Prop where
  queues : s.queues.Orderly
  init : ∀ i, s.thread i ≠ .stray
  absent : ∀ i, s.object i = .absent → s.thread i = .none
  listening : ∀ i, some i ∈ s.queues.listeners ↔ s.thread i = .looping
  open_ : ∀ i, s.object i = .deleted → s.thread i ≠ .looping
  run : ∀ i, s.thread i = .looping → s.run i = true
  written : ∀ i, s.written i = (s.queues.monitor (some i)).handled
  astray : ∀ i, s.astray i = []

theorem regular_empty : ({} : WebSockets ι).Regular where
  queues := EventQueues.orderly_empty
  init _ h := by cases h
  absent _ _ := rfl
  listening i := ⟨fun h => absurd h List.not_mem_nil, fun h => by cases h⟩
  open_ i h := by cases h
  run i h := by cases h
  written _ := rfl
  astray _ := rfl

variable {s : WebSockets ι}

theorem Regular.served (h : s.Regular) (i : ι) : s.Served i where
  init := h.init i
  written hi := by
    simp only [h.written i]
    have hacc := h.queues.account (some i) hi
    rw [← (h.queues.sound (some i)).given] at hacc
    exact hacc
  closed hd := ⟨fun hi => h.open_ i hd ((h.listening i).mp hi), fun hl => absurd hl (h.open_ i hd),
    h.astray i⟩

/-- A session's thread that is not in the loop goes elsewhere but into it. -/
theorem Regular.moves (h : s.Regular) {i : ι} {t : SessionThread} (ht : s.thread i ≠ .looping)
    (hinit : t ≠ .stray) (hloop : t ≠ .looping) (object : ι → SessionObject)
    (hobject : ∀ j, j ≠ i → object j = s.object j) (habsent : object i = .absent → t = .none) :
    ({ s with object, thread := Function.update s.thread i t } : WebSockets ι).Regular where
  queues := h.queues
  init j := by
    by_cases hj : j = i
    · simpa [hj] using hinit
    · simpa [hj] using h.init j
  absent j := by
    by_cases hj : j = i
    · subst hj
      simpa using habsent
    · simpa [hj, hobject j hj] using h.absent j
  listening j := by
    by_cases hj : j = i
    · subst hj
      simpa [hloop] using mt (h.listening j).mp ht
    · simpa [hj] using h.listening j
  open_ j := by
    by_cases hj : j = i
    · simp [hj, hloop]
    · simpa [hj, hobject j hj] using h.open_ j
  run j := by
    by_cases hj : j = i
    · simp [hj, hloop]
    · simpa [hj] using h.run j
  written := h.written
  astray := h.astray

/-- What becomes of a session's object where its thread is not in the loop. -/
theorem Regular.becomes (h : s.Regular) {i : ι} {o : SessionObject} (ho : o ≠ .absent)
    (hd : o = .deleted → s.thread i ≠ .looping) :
    ({ s with object := Function.update s.object i o } : WebSockets ι).Regular where
  queues := h.queues
  init := h.init
  absent j := by
    by_cases hj : j = i
    · simp [hj, ho]
    · simpa [hj] using h.absent j
  listening := h.listening
  open_ j := by
    by_cases hj : j = i
    · subst hj
      simpa using hd
    · simpa [hj] using h.open_ j
  run := h.run
  written := h.written
  astray := h.astray

/-- A step of the queues that is not a registration of a session, where `written` keeps up. -/
theorem Regular.handles (h : s.Regular) {a : EventStep (Option ι)} {written : ι → List Event}
    (he : s.queues.enabled a) (ha : ∀ i, a ≠ .register (some i))
    (hwritten : ∀ i, written i = ((s.queues.step a).monitor (some i)).handled) :
    ({ s with queues := s.queues.step a, written } : WebSockets ι).Regular where
  queues := h.queues.step he
  init := h.init
  absent := h.absent
  listening i := by
    refine Iff.trans ?_ (h.listening i)
    by_cases hown : a.own = some (some i)
    · cases a with
      | send | thread => cases hown
      | register j =>
          cases hown
          exact absurd rfl (ha i)
      | consumer | wake => exact Iff.rfl
    · exact EventQueues.mem_step_listeners hown
  open_ := h.open_
  run := h.run
  written := hwritten
  astray := h.astray

theorem Regular.loop (h : s.Regular) {i : ι} (ht : s.thread i = .looping)
    (hw : ¬ (s.queues.monitor (some i)).ConsumerWaits) : (s.loop i).Regular := by
  have hrun : s.run i = true := h.run i ht
  have hlive : s.object i ≠ .deleted := fun hd => h.open_ i hd ht
  have hcheck : ¬ ((s.queues.monitor (some i)).consumer = .check ∧ s.run i = false) := by
    simp [hrun]
  simp only [WebSockets.loop, if_neg hcheck, if_neg hlive]
  refine h.handles ⟨(h.listening i).mpr ht, hw⟩ (fun j hj => by cases hj) fun j => ?_
  by_cases hj : j = i
  · subst hj
    simp only [EventQueues.step, Function.update_self, Monitor.consume_handled, h.written j]
  · have hne : (some j : Option ι) ≠ some i := fun heq => hj (Option.some.inj heq)
    simp only [EventQueues.step, Function.update_of_ne hj, Function.update_of_ne hne, h.written j]

theorem Regular.listen (h : s.Regular) {i : ι} (ht : s.thread i = .init)
    (hlive : s.object i ≠ .deleted) : (s.step (.listen i)).Regular := by
  have hnew : some i ∉ s.queues.listeners := by
    intro hmem
    have hloop := (h.listening i).mp hmem
    rw [ht] at hloop
    cases hloop
  have hregister : s.queues.enabled (.register (some i)) := hnew
  refine ⟨h.queues.step hregister, fun j => ?_, fun j hj => ?_, fun j => ?_, fun j hj => ?_, fun j => ?_,
    h.written, h.astray⟩
  · by_cases hj : j = i
    · simp [WebSockets.step, hj]
    · simpa [WebSockets.step, hj] using h.init j
  · by_cases hji : j = i
    · subst hji
      rw [h.absent j hj] at ht
      cases ht
    · simpa [WebSockets.step, hji] using h.absent j hj
  · by_cases hj : j = i
    · simp [WebSockets.step, EventQueues.step, hj]
    · simpa [WebSockets.step, EventQueues.step, hj] using h.listening j
  · by_cases hji : j = i
    · exact absurd (hji ▸ hj) hlive
    · simpa [WebSockets.step, hji] using h.open_ j hj
  · by_cases hj : j = i
    · simp [WebSockets.step, hj]
    · simpa [WebSockets.step, hj] using h.run j

/-- A step that meets the condition keeps the invariant. -/
theorem Regular.step (h : s.Regular) {a : WebSocketStep ι} (he : s.enabled a) (hq : s.InTime a) :
    (s.step a).Regular := by
  cases a with
  | connect i =>
      have hnone : s.thread i = .none := h.absent i he
      refine h.moves (by simp [hnone]) (by simp) (by simp) _
        (fun j hj => Function.update_of_ne hj _ _) fun habsent => ?_
      rw [Function.update_self] at habsent
      cases habsent
  | construct i => exact h.becomes (by simp) (by simp)
  | close i =>
      have hout : s.thread i ≠ .looping := mt (h.listening i).mpr hq
      exact h.becomes (by simp) fun _ => hout
  | call i =>
      have he : s.thread i = .started := he
      have hq : s.object i = .built := hq
      simp only [WebSockets.step, hq, SessionObject.dispatch, if_true]
      refine h.moves (by simp [he]) (by simp) (by simp) _ (fun j hj => rfl) fun habsent => ?_
      rw [hq] at habsent
      cases habsent
  | listen i => exact h.listen he hq
  | loop i => exact h.loop he.1 he.2
  | wake i =>
      refine h.handles ⟨(h.listening i).mpr he.1, he.2⟩ (fun j hj => by cases hj) fun j => ?_
      by_cases hj : (some j : Option ι) = some i
      · rw [h.written j]
        simp only [EventQueues.step, hj, Function.update_self]
        rfl
      · rw [h.written j]
        simp only [EventQueues.step, Function.update_of_ne hj]
  | queues a =>
      have hother : ∀ i, a.own ≠ some (some i) := by
        intro i hown
        rcases he.2 with hnone | hnone <;> simp [hown] at hnone
      refine h.handles he.1 (fun i ha => hother i (ha ▸ rfl)) fun i => ?_
      rw [h.written i, EventQueues.step_handled (hother i)]

/-- A step that does not meet the condition leaves a session that does not go as it should. -/
theorem not_served {a : WebSocketStep ι} (hq : ¬ s.InTime a) : ¬ ∀ i, (s.step a).Served i := by
  intro hserved
  cases a with
  | call i =>
      have hne : s.object i ≠ .built := hq
      have hdispatch : (s.object i).dispatch ≠ some .eventsSession := by
        cases ho : s.object i with
        | built => exact absurd ho hne
        | absent | base | deleted => simp [SessionObject.dispatch]
      refine (hserved i).init ?_
      simp only [WebSockets.step, if_neg hdispatch, Function.update_self]
  | listen i =>
      have hd : s.object i = .deleted := not_not.mp hq
      refine ((hserved i).closed hd).1 ?_
      exact List.mem_append_right _ (List.mem_singleton.mpr rfl)
  | close i =>
      have hlistens : some i ∈ s.queues.listeners := not_not.mp hq
      refine ((hserved i).closed ?_).1 hlistens
      exact Function.update_self i _ _
  | connect | construct | loop | wake | queues => exact hq trivial

end WebSockets

/-! ## 4. Runs -/

/-- In every state of a run every session goes as it should, exactly when the run's steps are in
    time. -/
theorem sessions_exact (ι : Type*) [DecidableEq ι] (tr : List (WebSockets ι × WebSocketStep ι))
    (s : WebSockets ι) (hrun : (webSockets ι).Run {} tr s) :
    Machine.States (fun s => ∀ i, s.Served i) tr s ↔ Machine.Steps WebSockets.InTime tr := by
  refine hrun.exact WebSockets.regular_empty (fun s h i => h.served i) ?_ ?_
  · intro s a s' hJ he hs hq
    cases hs
    exact hJ.step he hq
  · intro s a s' hJ he hs hq
    cases hs
    exact WebSockets.not_served hq

/-- A session that is connected, constructed and at its listener. -/
def opened : List (WebSocketStep Unit) := [.connect (), .construct (), .call (), .listen ()]

/-- An event on its way to the listener's queue, and the session's thread from its start to the
    `send`. -/
def sends (e : Event) : List (WebSocketStep Unit) :=
  [.queues (.send none e), .queues .thread, .queues .thread, .queues .thread, .loop (), .loop (),
    .loop (), .loop ()]

theorem sessions_exact_opened : ∃ tr s, (webSockets Unit).Run {} tr s ∧
    s.written () = [lampOn] ∧
    (Machine.States (fun s => ∀ i, s.Served i) tr s ↔ Machine.Steps WebSockets.InTime tr) := by
  obtain ⟨r, hr⟩ : ∃ r, (webSockets Unit).exec [] {} (opened ++ sends lampOn) = some r := ⟨_, rfl⟩
  have hrun : (webSockets Unit).Run {} r.1 r.2 := Machine.Run.start.exec hr
  have hwritten : r.2.written () = [lampOn] := by
    cases hr
    rfl
  exact ⟨r.1, r.2, hrun, hwritten, sessions_exact Unit r.1 r.2 hrun⟩

/-- Behind the close an event is sent through the deleted session. -/
theorem not_served_closed : ∃ tr s, (webSockets Unit).Run {} tr s ∧ s.object () = .deleted ∧
    s.astray () = [lampOn] ∧ ¬ Machine.States (fun s => ∀ i, s.Served i) tr s := by
  obtain ⟨r, hr⟩ : ∃ r, (webSockets Unit).exec [] {}
      (opened ++ .close () :: sends lampOn) = some r := ⟨_, rfl⟩
  have hrun : (webSockets Unit).Run {} r.1 r.2 := Machine.Run.start.exec hr
  have hstate : r.2.object () = .deleted ∧ r.2.astray () = [lampOn] := by
    cases hr
    exact ⟨rfl, rfl⟩
  refine ⟨r.1, r.2, hrun, hstate.1, hstate.2, fun hall => ?_⟩
  have hnone := ((hall.2 ()).closed hstate.1).2.2
  rw [hstate.2] at hnone
  cases hnone

end Domoio
