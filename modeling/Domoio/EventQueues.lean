import Mathlib.Data.List.Nodup
import Mathlib.Logic.Function.Basic
import Domoio.Lib.Machine
import Domoio.Lib.Monitor
import Domoio.Models

/-
  File:      Domoio/EventQueues.lean
  Subject:   The hand-over of events to the threads that listen
             (src/events.cc, src/jsengine/engine.cc, src/httpd/actions/http_events.cc).

  `events::send` posts an event to the `io_service`. Its one thread takes the posted events in order
  and calls each listener: `JsProcessor::queue_event` and `SSEContext::add_event` push the event on
  the listener's queue, lock its mutex, notify and unlock. `JsProcessor::run`, and
  `EventsSession::init` with its run flag set, register the listener, take the mutex and go round
  the loop that waits for the queue to have an event and handles it.

  `eventQueues_handOver` is about every interleaving of any number of listeners.
-/

namespace Domoio

open Lib

/-! ## 1. The threads -/

/-- Where the events thread is: between two events, between the calls of two listeners, in the call
    of one. `left` are the listeners it has still to call. -/
inductive EventsThread (ι : Type*) where
  | idle
  | emitting (e : Event) (left : List ι)
  | calling (e : Event) (i : ι) (left : List ι)
  deriving DecidableEq

/-- The listeners the events thread has still to call, and with what. -/
def EventsThread.left {ι : Type*} : EventsThread ι → List ι
  | .idle => []
  | .emitting _ left | .calling _ _ left => left

def EventsThread.event {ι : Type*} : EventsThread ι → List Event
  | .idle => []
  | .emitting e _ | .calling e _ _ => [e]

/-- The listener that is being called. -/
def EventsThread.current {ι : Type*} : EventsThread ι → Option ι
  | .idle | .emitting _ _ => none
  | .calling _ i _ => some i

/-- `sent` is history; so are `backlog` and `since`, which are about a listener's registration: the
    events that were posted then, and how many had been sent. -/
structure EventQueues (ι : Type*) where
  posted : List Event := []
  thread : EventsThread ι := .idle
  listeners : List ι := []
  monitor : ι → Monitor Event := fun _ => {}
  sent : List Event := []
  backlog : ι → List Event := fun _ => []
  since : ι → Nat := fun _ => 0

/-- What can happen next. `send i e` is a call of `events::send` by listener `i`'s thread while it
    handles an event, `send none e` one by any other thread. -/
inductive EventStep (ι : Type*) where
  | send (sender : Option ι) (e : Event)
  | thread
  | register (i : ι)
  | consumer (i : ι)
  | wake (i : ι)

/-- The listener whose thread takes the step; nobody's for the events thread and for a sender. -/
def EventStep.own {ι : Type*} : EventStep ι → Option ι
  | .send _ _ | .thread => none
  | .register i | .consumer i | .wake i => some i

namespace EventQueues

variable {ι : Type*} [DecidableEq ι]

/-- The events thread waits for the mutex of the listener it calls. -/
def ThreadWaits (s : EventQueues ι) (i : ι) : Prop :=
  i ∈ s.thread.current ∧ (s.monitor i).ProducerWaits

def enabled (s : EventQueues ι) : EventStep ι → Prop
  | .send none _ => True
  | .send (some i) _ => (s.monitor i).inHand ≠ []
  | .thread => (s.thread = .idle → s.posted ≠ []) ∧
      ∀ i ∈ s.thread.current, ¬ (s.monitor i).ProducerWaits
  | .register i => i ∉ s.listeners
  | .consumer i => i ∈ s.listeners ∧ ¬ (s.monitor i).ConsumerWaits
  | .wake i => i ∈ s.listeners ∧ (s.monitor i).consumer = .waiting

instance (s : EventQueues ι) : (a : EventStep ι) → Decidable (s.enabled a)
  | .send none _ => inferInstanceAs (Decidable True)
  | .send (some i) _ => inferInstanceAs (Decidable ((s.monitor i).inHand ≠ []))
  | .thread => inferInstanceAs (Decidable ((s.thread = .idle → s.posted ≠ []) ∧
      ∀ i ∈ s.thread.current, ¬ (s.monitor i).ProducerWaits))
  | .register i => inferInstanceAs (Decidable (i ∉ s.listeners))
  | .consumer i => inferInstanceAs (Decidable (i ∈ s.listeners ∧ ¬ (s.monitor i).ConsumerWaits))
  | .wake i => inferInstanceAs (Decidable (i ∈ s.listeners ∧ (s.monitor i).consumer = .waiting))

/-- The events thread's next step. -/
def threadStep (s : EventQueues ι) : EventQueues ι :=
  match s.thread with
  | .idle =>
      match s.posted with
      | [] => s
      | e :: posted => { s with posted, thread := .emitting e s.listeners }
  | .emitting _ [] => { s with thread := .idle }
  | .emitting e (i :: left) =>
      { s with thread := .calling e i left
               monitor := Function.update s.monitor i ((s.monitor i).call e) }
  | .calling e i left =>
      { s with thread := match (s.monitor i).producer with
                 | .unlock => .emitting e left
                 | .away | .push _ | .lock | .notify => .calling e i left
               monitor := Function.update s.monitor i (s.monitor i).produce }

def step (s : EventQueues ι) : EventStep ι → EventQueues ι
  | .send _ e => { s with posted := s.posted ++ [e], sent := s.sent ++ [e] }
  | .thread => s.threadStep
  | .register i =>
      { s with listeners := s.listeners ++ [i]
               backlog := Function.update s.backlog i s.posted
               since := Function.update s.since i s.sent.length }
  | .consumer i => { s with monitor := Function.update s.monitor i (s.monitor i).consume }
  | .wake i => { s with monitor := Function.update s.monitor i (s.monitor i).wake }

end EventQueues

/-- The threads, their steps in any order. -/
def eventQueues (ι : Type*) [DecidableEq ι] : Machine (EventQueues ι) (EventStep ι) Empty where
  enabled := EventQueues.enabled
  step s a := .ok (s.step a)

instance {ι : Type*} [DecidableEq ι] (s : EventQueues ι) (a : EventStep ι) :
    Decidable ((eventQueues ι).enabled s a) := inferInstanceAs (Decidable (s.enabled a))

/-! ## 2. The invariant -/

namespace EventQueues

variable {ι : Type*} [DecidableEq ι]

/-- What listener `i` is still to be called with. -/
def owed (t : EventsThread ι) (i : ι) : List Event := if i ∈ t.left then t.event else []

/-- Every monitor is sound and only the one of the call under way has its producer; the listeners to
    be called are called once; what a listener was given, what it is to be given and what is posted
    is what was posted when it registered and what has been sent since. -/
structure Orderly (s : EventQueues ι) : Prop where
  sound : ∀ i, (s.monitor i).Sound
  calling : ∀ i, (s.monitor i).producer ≠ .away → ∃ e left, s.thread = .calling e i left
  fresh : ∀ i, i ∉ s.listeners → (s.monitor i).given = [] ∧ (s.monitor i).offered = []
  nodup : s.listeners.Nodup ∧ s.thread.left.Nodup
  left : ∀ i ∈ s.thread.left, i ∈ s.listeners
  current : ∀ e i left, s.thread = .calling e i left → i ∉ left ∧ i ∈ s.listeners
  since : ∀ i, s.since i ≤ s.sent.length
  account : ∀ i ∈ s.listeners,
    (s.monitor i).given ++ (s.monitor i).offered ++ owed s.thread i ++ s.posted =
      s.backlog i ++ s.sent.drop (s.since i)

theorem orderly_empty : ({} : EventQueues ι).Orderly where
  sound _ := Monitor.sound_empty
  calling i hi := absurd rfl hi
  fresh _ _ := ⟨rfl, rfl⟩
  nodup := ⟨List.nodup_nil, List.nodup_nil⟩
  left i hi := absurd hi List.not_mem_nil
  current e i left h := by cases h
  since _ := Nat.zero_le _
  account i hi := absurd hi List.not_mem_nil

theorem owed_of_mem {t : EventsThread ι} {i : ι} (hi : i ∈ t.left) : owed t i = t.event := if_pos hi

theorem owed_of_notMem {t : EventsThread ι} {i : ι} (hi : i ∉ t.left) : owed t i = [] := if_neg hi

variable {s : EventQueues ι}

theorem Orderly.send (h : s.Orderly) (sender : Option ι) (e : Event) :
    (s.step (.send sender e)).Orderly where
  sound := h.sound
  calling := h.calling
  fresh := h.fresh
  nodup := h.nodup
  left := h.left
  current := h.current
  since i := by
    have hle := h.since i
    simp only [step, List.length_append]
    omega
  account i hi := by
    have hacc := h.account i hi
    show (s.monitor i).given ++ (s.monitor i).offered ++ owed s.thread i ++ (s.posted ++ [e]) =
      s.backlog i ++ (s.sent ++ [e]).drop (s.since i)
    rw [List.drop_append_of_le_length (h.since i), ← List.append_assoc, hacc, List.append_assoc]

theorem Orderly.register (h : s.Orderly) {i : ι} (hi : i ∉ s.listeners) :
    (s.step (.register i)).Orderly where
  sound := h.sound
  calling := h.calling
  fresh j hj := h.fresh j fun hmem => hj (List.mem_append_left _ hmem)
  nodup := by
    refine ⟨List.nodup_append.mpr ⟨h.nodup.1, List.nodup_singleton i, ?_⟩, h.nodup.2⟩
    intro a ha b hb heq
    rw [List.mem_singleton.mp hb] at heq
    exact hi (heq ▸ ha)
  left j hj := List.mem_append_left _ (h.left j hj)
  current e j left ht :=
    ⟨(h.current e j left ht).1, List.mem_append_left _ (h.current e j left ht).2⟩
  since j := by
    by_cases hj : j = i
    · simp [step, hj]
    · simpa [step, hj] using h.since j
  account j hj := by
    by_cases hji : j = i
    · -- nothing that is under way goes to the new listener
      subst hji
      obtain ⟨hgiven, hoffered⟩ := h.fresh j hi
      have howed : owed s.thread j = [] := owed_of_notMem fun hleft => hi (h.left j hleft)
      simp only [step, Function.update_self, List.drop_length, List.append_nil]
      show (s.monitor j).given ++ (s.monitor j).offered ++ owed s.thread j ++ s.posted = s.posted
      rw [hgiven, hoffered, howed]
      rfl
    · have hmem : j ∈ s.listeners := by
        rcases List.mem_append.mp hj with hmem | hmem
        · exact hmem
        · exact absurd (List.mem_singleton.mp hmem) hji
      simp only [step, Function.update_of_ne hji]
      exact h.account j hmem

/-- A step of the consumer's, or its waking up, changes its monitor only, and there only what no one
    else is concerned with. -/
theorem Orderly.monitor (h : s.Orderly) (i : ι) {m : Monitor Event} (hm : m.Sound)
    (hproducer : m.producer = (s.monitor i).producer) (hgiven : m.given = (s.monitor i).given) :
    ({ s with monitor := Function.update s.monitor i m } : EventQueues ι).Orderly := by
  have hoffered : m.offered = (s.monitor i).offered := by
    rw [Monitor.offered, Monitor.offered, hproducer]
  have hsame : ∀ j, (Function.update s.monitor i m j).producer = (s.monitor j).producer ∧
      (Function.update s.monitor i m j).given = (s.monitor j).given ∧
      (Function.update s.monitor i m j).offered = (s.monitor j).offered := by
    intro j
    by_cases hj : j = i
    · subst hj
      rw [Function.update_self]
      exact ⟨hproducer, hgiven, hoffered⟩
    · rw [Function.update_of_ne hj]
      exact ⟨rfl, rfl, rfl⟩
  refine ⟨fun j => ?_, fun j => ?_, fun j => ?_, h.nodup, h.left, h.current, h.since, fun j => ?_⟩
  · by_cases hj : j = i
    · subst hj
      simpa using hm
    · simpa [hj] using h.sound j
  · simp only [(hsame j).1]
    exact h.calling j
  · simp only [(hsame j).2]
    exact h.fresh j
  · simp only [(hsame j).2]
    exact h.account j

/-- Nothing is under way for a listener unless the events thread is in its call. -/
theorem Orderly.away (h : s.Orderly) {i : ι} (ht : ∀ e left, s.thread ≠ .calling e i left) :
    (s.monitor i).producer = .away := by
  by_contra hne
  obtain ⟨e, left, hcalling⟩ := h.calling i hne
  exact ht e left hcalling

theorem Orderly.take (h : s.Orderly) {e : Event} {posted : List Event} (ht : s.thread = .idle)
    (hp : s.posted = e :: posted) :
    ({ s with posted, thread := .emitting e s.listeners } : EventQueues ι).Orderly := by
  refine ⟨h.sound, fun i hi => ?_, h.fresh, ⟨h.nodup.1, h.nodup.1⟩, fun _ hi => hi, ?_, h.since,
    fun i hi => ?_⟩
  · exact absurd (h.away fun e left hcalling => by rw [ht] at hcalling; cases hcalling) hi
  · intro e' i left hcalling
    cases hcalling
  · have hacc := h.account i hi
    have hnone : owed s.thread i = [] := by
      rw [ht]
      exact owed_of_notMem List.not_mem_nil
    have hone : owed (.emitting e s.listeners) i = [e] := owed_of_mem hi
    rw [hnone, hp, List.append_nil] at hacc
    rw [hone, ← hacc, List.append_assoc]
    rfl

theorem Orderly.done (h : s.Orderly) {e : Event} (ht : s.thread = .emitting e []) :
    ({ s with thread := .idle } : EventQueues ι).Orderly := by
  refine ⟨h.sound, fun i hi => ?_, h.fresh, ⟨h.nodup.1, List.nodup_nil⟩, ?_, ?_, h.since,
    fun i hi => ?_⟩
  · exact absurd (h.away fun e left hcalling => by rw [ht] at hcalling; cases hcalling) hi
  · intro i hi
    exact absurd hi List.not_mem_nil
  · intro e' i left hcalling
    cases hcalling
  · have hacc := h.account i hi
    have hnone : owed s.thread i = [] := by
      rw [ht]
      exact owed_of_notMem List.not_mem_nil
    rw [hnone] at hacc
    exact hacc

theorem Orderly.call (h : s.Orderly) {e : Event} {i : ι} {left : List ι}
    (ht : s.thread = .emitting e (i :: left)) :
    ({ s with thread := .calling e i left
              monitor := Function.update s.monitor i ((s.monitor i).call e) } :
      EventQueues ι).Orderly := by
  have haway : ∀ j, (s.monitor j).producer = .away := fun j =>
    h.away fun e left hcalling => by rw [ht] at hcalling; cases hcalling
  have hleft : i ∉ left ∧ left.Nodup := by
    have hnodup := h.nodup.2
    rw [ht] at hnodup
    exact List.nodup_cons.mp hnodup
  have hlisteners : ∀ j ∈ i :: left, j ∈ s.listeners := by
    intro j hj
    refine h.left j ?_
    rw [ht]
    exact hj
  refine ⟨fun j => ?_, fun j hj => ?_, fun j hj => ?_, ⟨h.nodup.1, hleft.2⟩,
    fun j hj => hlisteners j (List.mem_cons_of_mem _ hj), ?_, h.since, fun j hj => ?_⟩
  · by_cases hji : j = i
    · subst hji
      simpa using (h.sound j).call (haway j) e
    · simpa [hji] using h.sound j
  · by_cases hji : j = i
    · exact ⟨e, left, hji ▸ rfl⟩
    · simp only [Function.update_of_ne hji] at hj
      exact absurd (haway j) hj
  · have hji : j ≠ i := fun hji => hj (hji ▸ hlisteners i List.mem_cons_self)
    simpa [hji] using h.fresh j hj
  · intro e' j left' hcalling
    cases hcalling
    exact ⟨hleft.1, hlisteners i List.mem_cons_self⟩
  · have hacc := h.account j hj
    by_cases hji : j = i
    · -- the event is no longer owed, it is offered
      subst hji
      have hone : owed s.thread j = [e] := by
        rw [ht]
        exact owed_of_mem List.mem_cons_self
      have hnone : owed (.calling e j left) j = [] := owed_of_notMem hleft.1
      have hoffered : (s.monitor j).offered = [] := by rw [Monitor.offered, haway j]
      rw [hone, hoffered, List.append_nil] at hacc
      simp only [Function.update_self, Monitor.call_given, Monitor.call_offered, hnone,
        List.append_nil]
      exact hacc
    · have howed : owed (.calling e i left) j = owed s.thread j := by
        rw [ht]
        by_cases hj' : j ∈ left
        · have hmem : j ∈ (EventsThread.emitting e (i :: left)).left := List.mem_cons_of_mem i hj'
          rw [owed_of_mem hmem]
          exact owed_of_mem hj'
        · refine (owed_of_notMem hj').trans (owed_of_notMem fun hmem => ?_).symm
          rcases List.mem_cons.mp hmem with hmem | hmem
          · exact hji hmem
          · exact hj' hmem
      simp only [Function.update_of_ne hji, howed]
      exact hacc

/-- A step within a listener's call. -/
theorem Orderly.produce (h : s.Orderly) {e : Event} {i : ι} {left : List ι}
    {thread : EventsThread ι} (ht : s.thread = .calling e i left)
    (hw : ¬ (s.monitor i).ProducerWaits)
    (hthread : thread = .calling e i left ∨
      thread = .emitting e left ∧ (s.monitor i).produce.producer = .away) :
    ({ s with thread, monitor := Function.update s.monitor i (s.monitor i).produce } :
      EventQueues ι).Orderly := by
  have hleft : thread.left = left ∧ thread.event = [e] := by
    rcases hthread with rfl | ⟨rfl, -⟩ <;> exact ⟨rfl, rfl⟩
  have howed : ∀ j, owed thread j = owed s.thread j := by
    intro j
    rw [owed, owed, hleft.1, hleft.2, ht]
    rfl
  obtain ⟨hi, hlistener⟩ := h.current e i left ht
  have haway : ∀ j, j ≠ i → (s.monitor j).producer = .away := fun j hji =>
    h.away fun e' left' hcalling => by
      rw [ht] at hcalling
      cases hcalling
      exact hji rfl
  refine ⟨fun j => ?_, fun j hj => ?_, fun j hj => ?_, ⟨h.nodup.1, ?_⟩, fun j hj => ?_, ?_, h.since,
    fun j hj => ?_⟩
  · by_cases hji : j = i
    · subst hji
      simpa using (h.sound j).produce hw
    · simpa [hji] using h.sound j
  · by_cases hji : j = i
    · subst hji
      simp only [Function.update_self] at hj
      rcases hthread with rfl | ⟨-, hdone⟩
      · exact ⟨e, left, rfl⟩
      · exact absurd hdone hj
    · simp only [Function.update_of_ne hji] at hj
      exact absurd (haway j hji) hj
  · have hji : j ≠ i := fun hji => hj (hji ▸ hlistener)
    simpa [hji] using h.fresh j hj
  · have hnodup := h.nodup.2
    rw [ht] at hnodup
    rw [hleft.1]
    exact hnodup
  · refine h.left j ?_
    rw [ht]
    rwa [hleft.1] at hj
  · intro e' j left' hcalling
    rcases hthread with rfl | ⟨rfl, -⟩
    · exact h.current e' j left' (ht.trans hcalling)
    · cases hcalling
  · have hacc := h.account j hj
    simp only [howed]
    by_cases hji : j = i
    · subst hji
      rw [Function.update_self, Monitor.produce_given]
      exact hacc
    · rw [Function.update_of_ne hji]
      exact hacc

theorem Orderly.thread (h : s.Orderly) (he : s.enabled .thread) : s.threadStep.Orderly := by
  obtain ⟨hposted, hwaits⟩ := he
  unfold threadStep
  split
  · rename_i ht
    split
    · rename_i hp
      exact absurd hp (hposted ht)
    · rename_i e posted hp
      exact h.take ht hp
  · rename_i e ht
    exact h.done ht
  · rename_i e i left ht
    exact h.call ht
  · rename_i e i left ht
    refine h.produce ht (hwaits i (by rw [ht]; rfl)) ?_
    unfold Monitor.produce
    cases (s.monitor i).producer with
    | unlock => exact Or.inr ⟨rfl, rfl⟩
    | away | push | lock | notify => exact Or.inl rfl

/-- The step lemma. -/
theorem Orderly.step (h : s.Orderly) {a : EventStep ι} (he : s.enabled a) : (s.step a).Orderly := by
  cases a with
  | send sender e => exact h.send sender e
  | thread => exact h.thread he
  | register i => exact h.register he
  | consumer i =>
      obtain ⟨hproducer, hgiven⟩ := (s.monitor i).consume_producer
      exact h.monitor i ((h.sound i).consume he.2) hproducer hgiven
  | wake i => exact h.monitor i ((h.sound i).wake he.2) rfl rfl

/-- A listener registers in a step of its own. -/
theorem mem_step_listeners {i : ι} {a : EventStep ι} (hown : a.own ≠ some i) :
    i ∈ (s.step a).listeners ↔ i ∈ s.listeners := by
  cases a with
  | send | consumer | wake => exact Iff.rfl
  | thread =>
      simp only [EventQueues.step, threadStep]
      split
      · split <;> exact Iff.rfl
      all_goals exact Iff.rfl
  | register j =>
      have hij : i ≠ j := fun heq => hown (congrArg some heq.symm)
      simp [EventQueues.step, hij]

/-- A listener handles events in steps of its own. -/
theorem step_handled {i : ι} {a : EventStep ι} (hown : a.own ≠ some i) :
    ((s.step a).monitor i).handled = (s.monitor i).handled := by
  have hupdate : ∀ (j : ι) (m : Monitor Event), (j = i → m.handled = (s.monitor i).handled) →
      (Function.update s.monitor j m i).handled = (s.monitor i).handled := by
    intro j m hm
    by_cases hij : i = j
    · subst hij
      rw [Function.update_self]
      exact hm rfl
    · rw [Function.update_of_ne hij]
  cases a with
  | send | register => rfl
  | thread =>
      simp only [EventQueues.step, threadStep]
      split
      · split <;> rfl
      · rfl
      · exact hupdate _ _ fun hj => by
          subst hj
          rfl
      · exact hupdate _ _ fun hj => by
          subst hj
          exact Monitor.produce_handled _
  | consumer j => exact hupdate _ _ fun hj => absurd (congrArg some hj) hown
  | wake j => exact hupdate _ _ fun hj => absurd (congrArg some hj) hown

end EventQueues

/-! ## 3. Every run -/

section Run

variable {ι : Type*} [DecidableEq ι] {s : EventQueues ι} {tr : List (EventQueues ι × EventStep ι)}

/-- The run lemma. -/
theorem eventQueues_orderly (hrun : (eventQueues ι).Run {} tr s) : s.Orderly :=
  (hrun.invariant_all EventQueues.orderly_empty fun s a s' hJ he hs => by
    cases hs
    exact hJ.step he).2

/-- A listener's events. Those it was sent since it registered, behind those that were posted then:
    the consumer has taken some from the front, the others wait in order in the queue, in the call
    under way, in the events thread and in the `io_service`. -/
def EventQueues.AllThere (s : EventQueues ι) (i : ι) : Prop :=
  (s.monitor i).consumed ++ (s.monitor i).queue ++ (s.monitor i).offered ++
    EventQueues.owed s.thread i ++ s.posted = s.backlog i ++ s.sent.drop (s.since i)

/-- The events thread is between its push on the listener's queue and its notification. -/
def EventQueues.BeforeNotify (s : EventQueues ι) (i : ι) : Prop :=
  i ∈ s.thread.current ∧ (s.monitor i).Announcing

/-- Events reach each listener's consumer in the order they were sent, none twice and none skipped;
    a consumer that waits beside an event is about to be notified; events thread and consumer do not
    wait for each other. -/
theorem eventQueues_handOver (ι : Type*) [DecidableEq ι] (tr : List (EventQueues ι × EventStep ι))
    (s : EventQueues ι) (hrun : (eventQueues ι).Run {} tr s) (i : ι) (hi : i ∈ s.listeners) :
    (s.AllThere i ∧
      (s.monitor i).consumed <+: s.backlog i ++ s.sent.drop (s.since i)) ∧
    ((s.monitor i).consumer = .waiting → (s.monitor i).queue ≠ [] → s.BeforeNotify i) ∧
    ¬ (s.ThreadWaits i ∧ (s.monitor i).ConsumerWaits) := by
  have h := eventQueues_orderly hrun
  have hall : s.AllThere i := by
    rw [EventQueues.AllThere, (h.sound i).given]
    exact h.account i hi
  refine ⟨⟨hall, ?_⟩, fun hwaiting hqueue => ?_, fun hboth => ?_⟩
  · rw [← hall]
    simp only [List.append_assoc]
    exact List.prefix_append _ _
  · have hannouncing := (h.sound i).asleep (Or.inr hwaiting) hqueue
    have hcalled : (s.monitor i).producer ≠ .away := by
      intro haway
      rcases hannouncing with hp | hp <;> simp [haway] at hp
    obtain ⟨e, left, ht⟩ := h.calling i hcalled
    refine ⟨?_, hannouncing⟩
    rw [ht]
    rfl
  · exact (h.sound i).not_both_wait ⟨hboth.1.2, hboth.2⟩

end Run

/-- A rule's thread handles an event and sends one itself, while the events thread waits for its
    mutex. -/
def ruleSends (e e' : Event) : List (EventStep Unit) :=
  [.register (), .send none e, .thread, .thread, .thread, .consumer (), .consumer (), .consumer (),
    .send (some ()) e']

def lampOn : Event :=
  { type := .portSet, channel := .privateChannel, deviceId := 7, oldValue := 0, newValue := 1 }

def lampOff : Event :=
  { type := .portSet, channel := .privateChannel, deviceId := 7, oldValue := 1, newValue := 0 }

theorem eventQueues_handOver_lamp : ∃ tr s, (eventQueues Unit).Run {} tr s ∧
    s.ThreadWaits () ∧ (s.monitor ()).consumed = [lampOn] ∧ s.posted = [lampOff] ∧
    (s.AllThere () ∧
      (s.monitor ()).consumed <+: s.backlog () ++ s.sent.drop (s.since ())) ∧
    ((s.monitor ()).consumer = .waiting → (s.monitor ()).queue ≠ [] → s.BeforeNotify ()) ∧
    ¬ (s.ThreadWaits () ∧ (s.monitor ()).ConsumerWaits) := by
  obtain ⟨r, hr⟩ : ∃ r, (eventQueues Unit).exec [] {} (ruleSends lampOn lampOff) = some r := ⟨_, rfl⟩
  have hrun : (eventQueues Unit).Run {} r.1 r.2 := Machine.Run.start.exec hr
  have hstate : r.2.ThreadWaits () ∧ (r.2.monitor ()).consumed = [lampOn] ∧
      r.2.posted = [lampOff] ∧ () ∈ r.2.listeners := by
    cases hr
    exact ⟨⟨rfl, rfl, by decide⟩, rfl, rfl, by decide⟩
  obtain ⟨hwaits, hconsumed, hposted, hlistener⟩ := hstate
  exact ⟨r.1, r.2, hrun, hwaits, hconsumed, hposted,
    eventQueues_handOver Unit r.1 r.2 hrun () hlistener⟩

end Domoio
