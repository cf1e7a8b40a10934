import Mathlib.Data.List.Basic

/-
  File:      Domoio/Lib/Monitor.lean
  Subject:   A queue that one thread fills outside a mutex and one empties under it.

  The producer pushes a message, then locks the mutex, notifies a condition and unlocks. The
  consumer holds the mutex from its start, while it handles a message too; only a wait on the
  condition lets go of it, and a wait can end without a notification.

  * `Monitor.Sound` -- the invariant: who is inside holds the mutex; a consumer that sleeps or is
    about to beside a queue that is not empty is about to be notified; what was pushed has been
    taken or is queued, in order;
  * `Sound.call`, `Sound.produce`, `Sound.consume`, `Sound.wake` -- every step keeps it;
  * `Sound.not_both_wait` -- producer and consumer do not wait for each other.
-/

namespace Lib

/-- Where the producer is: not in a call, or before one of the call's steps. -/
inductive Producer (ε : Type*) where
  | away
  | push (m : ε)
  | lock
  | notify
  | unlock
  deriving DecidableEq

/-- Where the consumer is. `start` and `woken` are before taking the mutex, `sleep` is before the
    wait, `front` before taking a message off the queue. -/
inductive Consumer (ε : Type*) where
  | start
  | check
  | sleep
  | waiting
  | woken
  | front
  | busy (m : ε)
  deriving DecidableEq

inductive Holder where
  | nobody
  | producer
  | consumer
  deriving DecidableEq

/-- `given` and `handled` are history: the messages pushed, and those the consumer is done with. -/
structure Monitor (ε : Type*) where
  queue : List ε := []
  holder : Holder := .nobody
  producer : Producer ε := .away
  consumer : Consumer ε := .start
  given : List ε := []
  handled : List ε := []

namespace Monitor

variable {ε : Type*}

/-! ## Steps -/

def call (m : Monitor ε) (e : ε) : Monitor ε := { m with producer := .push e }

/-- What a notification does to the consumer. -/
def notified : Consumer ε → Consumer ε
  | .waiting => .woken
  | c => c

/-- The producer's next step. -/
def produce (m : Monitor ε) : Monitor ε :=
  match m.producer with
  | .away => m
  | .push e => { m with queue := m.queue ++ [e], given := m.given ++ [e], producer := .lock }
  | .lock => { m with holder := .producer, producer := .notify }
  | .notify => { m with consumer := notified m.consumer, producer := .unlock }
  | .unlock => { m with holder := .nobody, producer := .away }

/-- The producer waits for the mutex. -/
def ProducerWaits (m : Monitor ε) : Prop := m.producer = .lock ∧ m.holder ≠ .nobody

/-- The consumer's next step. -/
def consume (m : Monitor ε) : Monitor ε :=
  match m.consumer with
  | .start | .woken => { m with holder := .consumer, consumer := .check }
  | .check => { m with consumer := if m.queue.isEmpty then .sleep else .front }
  | .sleep => { m with holder := .nobody, consumer := .waiting }
  | .waiting => m
  | .front =>
      match m.queue with
      | [] => m
      | e :: queue => { m with queue, consumer := .busy e }
  | .busy e => { m with handled := m.handled ++ [e], consumer := .check }

/-- The consumer waits for a notification or for the mutex. -/
def ConsumerWaits (m : Monitor ε) : Prop :=
  m.consumer = .waiting ∨ (m.consumer = .start ∨ m.consumer = .woken) ∧ m.holder ≠ .nobody

instance [DecidableEq ε] (m : Monitor ε) : Decidable m.ProducerWaits :=
  inferInstanceAs (Decidable (m.producer = .lock ∧ m.holder ≠ .nobody))

instance [DecidableEq ε] (m : Monitor ε) : Decidable m.ConsumerWaits :=
  inferInstanceAs (Decidable (m.consumer = .waiting ∨
    (m.consumer = .start ∨ m.consumer = .woken) ∧ m.holder ≠ .nobody))

/-- A wait ends without a notification. -/
def wake (m : Monitor ε) : Monitor ε := { m with consumer := .woken }

/-! ## The invariant -/

/-- The message a call is still to push. -/
def offered (m : Monitor ε) : List ε :=
  match m.producer with
  | .push e => [e]
  | .away | .lock | .notify | .unlock => []

/-- The message the consumer is at. -/
def inHand (m : Monitor ε) : List ε :=
  match m.consumer with
  | .busy e => [e]
  | .start | .check | .sleep | .waiting | .woken | .front => []

/-- The messages taken off the queue. -/
def consumed (m : Monitor ε) : List ε := m.handled ++ m.inHand

/-- Behind a push, before the notification of it. -/
def Announcing (m : Monitor ε) : Prop := m.producer = .lock ∨ m.producer = .notify

structure Sound (m : Monitor ε) : Prop where
  producer : m.holder = .producer ↔ m.producer = .notify ∨ m.producer = .unlock
  consumer : m.holder = .consumer ↔
    m.consumer ≠ .start ∧ m.consumer ≠ .waiting ∧ m.consumer ≠ .woken
  front : m.consumer = .front → m.queue ≠ []
  asleep : m.consumer = .sleep ∨ m.consumer = .waiting → m.queue ≠ [] → m.Announcing
  given : m.consumed ++ m.queue = m.given

theorem sound_empty : Sound ({} : Monitor ε) where
  producer := by simp
  consumer := by simp
  front := by simp
  asleep := by simp
  given := rfl

variable {m : Monitor ε}

theorem Sound.call (h : m.Sound) (haway : m.producer = .away) (e : ε) : (m.call e).Sound where
  producer := by simpa [Monitor.call, haway] using h.producer
  consumer := h.consumer
  front := h.front
  asleep hc hq := by
    have ha := h.asleep hc hq
    simp [Announcing, haway] at ha
  given := h.given

theorem Sound.produce (h : m.Sound) (hw : ¬ m.ProducerWaits) : m.produce.Sound := by
  obtain ⟨hproducer, hconsumer, hfront, hasleep, hgiven⟩ := h
  unfold Monitor.produce
  split
  · exact ⟨hproducer, hconsumer, hfront, hasleep, hgiven⟩
  · rename_i e hp
    refine ⟨by simpa [hp] using hproducer, hconsumer, fun _ => by simp,
      fun _ _ => Or.inl rfl, ?_⟩
    show m.consumed ++ (m.queue ++ [e]) = m.given ++ [e]
    rw [← hgiven, List.append_assoc]
  · rename_i hp
    have hfree : m.holder = .nobody := by
      by_contra hne
      exact hw ⟨hp, hne⟩
    rw [hfree] at hconsumer
    refine ⟨by simp, ?_, hfront, fun _ _ => Or.inr rfl, hgiven⟩
    simpa using hconsumer
  · rename_i hp
    -- the producer holds the mutex, so the consumer is outside
    have hheld : m.holder = .producer := hproducer.mpr (Or.inl hp)
    rw [hheld] at hconsumer
    cases hc : m.consumer with
    | start | waiting | woken =>
        simp only [notified]
        refine ⟨by simp [hheld], by simp [hheld], by simp, by simp, ?_⟩
        simpa [consumed, inHand, hc] using hgiven
    | check | sleep | front | busy => simp [hc] at hconsumer
  · rename_i hp
    have hheld : m.holder = .producer := hproducer.mpr (Or.inr hp)
    rw [hheld] at hconsumer
    refine ⟨by simp, by simpa using hconsumer, hfront, fun hc hq => ?_, hgiven⟩
    have ha := hasleep hc hq
    simp [Announcing, hp] at ha

theorem Sound.consume (h : m.Sound) (hw : ¬ m.ConsumerWaits) : m.consume.Sound := by
  obtain ⟨hproducer, hconsumer, hfront, hasleep, hgiven⟩ := h
  -- taking the mutex
  have hacquire : m.consumer = .start ∨ m.consumer = .woken →
      Sound { m with holder := .consumer, consumer := .check } := by
    intro hc
    have hfree : m.holder = .nobody := by
      by_contra hne
      exact hw (Or.inr ⟨hc, hne⟩)
    refine ⟨?_, by simp, by simp, by simp, ?_⟩
    · simpa [hfree] using hproducer
    · rcases hc with hc | hc <;> simpa [consumed, inHand, hc] using hgiven
  have hinside : m.consumer ≠ .start → m.consumer ≠ .waiting → m.consumer ≠ .woken →
      m.holder = .consumer := fun h₁ h₂ h₃ => hconsumer.mpr ⟨h₁, h₂, h₃⟩
  unfold Monitor.consume
  split
  · rename_i hc
    exact hacquire (Or.inl hc)
  · rename_i hc
    exact hacquire (Or.inr hc)
  · rename_i hc
    have hheld : m.holder = .consumer := hinside (by simp [hc]) (by simp [hc]) (by simp [hc])
    cases hq : m.queue with
    | nil =>
        refine ⟨hproducer, by simp [hheld], by simp, by simp, ?_⟩
        simpa [consumed, inHand, hc, hq] using hgiven
    | cons e queue =>
        refine ⟨hproducer, by simp [hheld], by simp, by simp, ?_⟩
        simpa [consumed, inHand, hc, hq] using hgiven
  · rename_i hc
    have hheld : m.holder = .consumer := hinside (by simp [hc]) (by simp [hc]) (by simp [hc])
    refine ⟨?_, by simp, by simp, fun _ hq => hasleep (Or.inl hc) hq, ?_⟩
    · simpa [hheld] using hproducer
    · simpa [consumed, inHand, hc] using hgiven
  · exact ⟨hproducer, hconsumer, hfront, hasleep, hgiven⟩
  · rename_i hc
    have hheld : m.holder = .consumer := hinside (by simp [hc]) (by simp [hc]) (by simp [hc])
    split
    · exact ⟨hproducer, hconsumer, hfront, hasleep, hgiven⟩
    · rename_i e queue hq
      refine ⟨hproducer, by simp [hheld], by simp, by simp, ?_⟩
      simpa [consumed, inHand, hc, hq] using hgiven
  · rename_i e hc
    have hheld : m.holder = .consumer := hinside (by simp [hc]) (by simp [hc]) (by simp [hc])
    refine ⟨hproducer, by simp [hheld], by simp, by simp, ?_⟩
    simpa [consumed, inHand, hc] using hgiven

theorem Sound.wake (h : m.Sound) (hc : m.consumer = .waiting) : m.wake.Sound where
  producer := h.producer
  consumer := by simpa [Monitor.wake, hc] using h.consumer
  front := by simp [Monitor.wake]
  asleep := by simp [Monitor.wake]
  given := by simpa [Monitor.wake, consumed, inHand, hc] using h.given

/-- A producer that waits waits for a consumer that has a step to take. -/
theorem Sound.not_both_wait (h : m.Sound) : ¬ (m.ProducerWaits ∧ m.ConsumerWaits) := by
  intro hboth
  obtain ⟨⟨hp, hheld⟩, hc⟩ := hboth
  have hconsumer : m.holder = .consumer := by
    cases hholder : m.holder with
    | nobody => exact absurd hholder hheld
    | producer =>
        rcases h.producer.mp hholder with hp' | hp' <;> simp [hp] at hp'
    | consumer => rfl
  obtain ⟨h₁, h₂, h₃⟩ := h.consumer.mp hconsumer
  rcases hc with hc | ⟨hc | hc, -⟩
  · exact h₂ hc
  · exact h₁ hc
  · exact h₃ hc

/-! ## What the steps leave alone -/

@[simp] theorem call_given (m : Monitor ε) (e : ε) : (m.call e).given = m.given := rfl

@[simp] theorem call_offered (m : Monitor ε) (e : ε) : (m.call e).offered = [e] := rfl

/-- A producer's step moves what is offered to what is given. -/
theorem produce_given (m : Monitor ε) : m.produce.given ++ m.produce.offered = m.given ++ m.offered := by
  unfold produce offered
  split <;> rename_i hp <;> simp [hp]

theorem consume_producer (m : Monitor ε) :
    m.consume.producer = m.producer ∧ m.consume.given = m.given := by
  unfold consume
  split
  case h_6 => split <;> exact ⟨rfl, rfl⟩
  all_goals exact ⟨rfl, rfl⟩

theorem consume_handled (m : Monitor ε) : m.consume.handled = m.handled ++ m.inHand := by
  unfold consume inHand
  split
  case h_6 hc => split <;> simp [hc]
  all_goals simp_all only [List.append_nil]

@[simp] theorem produce_handled (m : Monitor ε) : m.produce.handled = m.handled := by
  unfold produce
  split <;> rfl

@[simp] theorem consume_given (m : Monitor ε) : m.consume.given = m.given := (consume_producer m).2

@[simp] theorem consume_offered (m : Monitor ε) : m.consume.offered = m.offered := by
  rw [offered, offered, (consume_producer m).1]

end Monitor

end Lib
