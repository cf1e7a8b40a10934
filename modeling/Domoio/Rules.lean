import Domoio.Lib.Machine
import Domoio.Devices

/-
  File:      Domoio/Rules.lean
  Subject:   A port set by one thread and by the rule that handles the event of it
             (src/models/port.cc, src/events.cc, src/jsengine/engine.cc, port_template.cc).

  `set_value` publishes the event of a change before it stores the value. The event reaches the
  JavaScript thread through the queue of the events' `io_service` and the queue of the processor,
  and a rule that handles it may set the same port. `ruleRun_exact`: the rule's value is the one
  that stays exactly when its call comes behind what is left of the call that published.
-/

namespace Domoio

open Lib

/-! ## 1. The steps of `set_value` -/

/-- Where a call `set_value(newValue)` is. -/
inductive SetCall where
  | idle
  | compare (newValue : Int32)
  | publish (newValue : Int32)
  | signal (newValue : Int32)
  | store (newValue : Int32)
  | returned
  deriving DecidableEq

/-- What the calls work on: the port, the events posted to the `io_service`, the messages given to
    the signal of the device. -/
structure PortMemory where
  port : PortState
  posted : List Event := []
  messages : List Bytes := []

/-- The event of a change of the port. -/
def PortMemory.event (d : DeviceState) (m : PortMemory) (newValue : Int32) : Event where
  type := .portSet
  channel := .privateChannel
  deviceId := d.id
  portId := m.port.id
  digital := m.port.digital
  oldValue := m.port.value
  newValue := newValue

/-- The next step of a call on a port of `d`. -/
def SetCall.step (d : DeviceState) (m : PortMemory) : SetCall → PortMemory × SetCall
  | .idle => (m, .idle)
  | .compare n => if m.port.value = n then (m, .returned) else (m, .publish n)
  | .publish n => ({ m with posted := m.posted ++ [m.event d n] }, .signal n)
  | .signal n =>
      if d.isNetworkDevice then
        ({ m with messages := m.messages ++ [setMessage m.port.id n] }, .store n)
      else (m, .store n)
  | .store n => ({ m with port := { m.port with value := n } }, .returned)
  | .returned => (m, .returned)

/-! ## 2. The two threads -/

/-- A run of a setter and a rule. `queue` is the processor's. -/
structure RuleRun where
  memory : PortMemory
  queue : List Event := []
  setter : SetCall
  rule : SetCall := .idle

/-- What can happen next: the setter's call, the events thread's hand-over, the processor's next
    event, the rule's call. -/
inductive RuleStep where
  | setter
  | handOver
  | handle
  | rule

namespace RuleRun

/-- The JavaScript thread is not in a call. -/
def ruleIdle (s : RuleRun) : Prop := s.rule = .idle ∨ s.rule = .returned

def enabled (s : RuleRun) : RuleStep → Prop
  | .setter => s.setter ≠ .returned
  | .handOver => s.memory.posted ≠ []
  | .handle => s.queue ≠ [] ∧ s.ruleIdle
  | .rule => ¬ s.ruleIdle

instance (s : RuleRun) : Decidable s.ruleIdle := by
  unfold ruleIdle
  infer_instance

instance (s : RuleRun) : (a : RuleStep) → Decidable (s.enabled a)
  | .setter => inferInstanceAs (Decidable (s.setter ≠ .returned))
  | .handOver => inferInstanceAs (Decidable (s.memory.posted ≠ []))
  | .handle => inferInstanceAs (Decidable (s.queue ≠ [] ∧ s.ruleIdle))
  | .rule => inferInstanceAs (Decidable (¬ s.ruleIdle))

/-- `rule` says which value the processor's rule sets the port to when it handles an event. -/
def step (d : DeviceState) (rule : Event → Option Int32) (s : RuleRun) : RuleStep → RuleRun
  | .setter =>
      let (memory, setter) := s.setter.step d s.memory
      { s with memory, setter }
  | .handOver =>
      { s with memory := { s.memory with posted := s.memory.posted.tail }
               queue := s.queue ++ s.memory.posted.head?.toList }
  | .handle =>
      match s.queue.head?.bind rule with
      | none => { s with queue := s.queue.tail }
      | some n => { s with queue := s.queue.tail, rule := .compare n }
  | .rule =>
      let (memory, rule) := s.rule.step d s.memory
      { s with memory, rule }

/-- Everything has finished. -/
def finished (s : RuleRun) : Prop :=
  s.setter = .returned ∧ s.ruleIdle ∧ s.memory.posted = [] ∧ s.queue = []

end RuleRun

/-- The setter and the rule, their steps and those of the events thread in any order. -/
def ruleRun (d : DeviceState) (rule : Event → Option Int32) : Machine RuleRun RuleStep Empty where
  enabled := RuleRun.enabled
  step s a := .ok (s.step d rule a)

instance (d : DeviceState) (rule : Event → Option Int32) (s : RuleRun) (a : RuleStep) :
    Decidable ((ruleRun d rule).enabled s a) := inferInstanceAs (Decidable (s.enabled a))

/-! ## 3. Where a run can be -/

/-- The rule's value is the one that stays: the port has it, and a network device was sent it last. -/
def RuleRun.Stays (d : DeviceState) (w : Int32) (s : RuleRun) : Prop :=
  s.memory.port.value = w ∧ (d.isNetworkDevice = true →
    s.memory.messages.getLast? = some (setMessage s.memory.port.id w))

/-- The rule's call comes late enough, for a port that had the value `old`. When it compares `old`
    itself, the setter has returned; when it signals a network device, the setter has; when it
    stores, the setter has returned. -/
def RuleRun.InTime (d : DeviceState) (old : Int32) (s : RuleRun) : RuleStep → Prop
  | .rule =>
      match s.rule with
      | .compare n => n = old → s.setter = .returned
      | .signal _ => d.isNetworkDevice = true → ∀ n, s.setter ≠ .signal n
      | .store _ => s.setter = .returned
      | .idle | .publish _ | .returned => True
  | .setter | .handOver | .handle => True

/-- The rule answers the event of a change of port `id` to `v` by setting it to `w`, and does not
    answer that change. -/
structure Answers (d : DeviceState) (id v w : Int32) (rule : Event → Option Int32) : Prop where
  change : ∀ m : PortMemory, m.port.id = id → rule (m.event d v) = some w
  own : ∀ m : PortMemory, m.port.id = id → rule (m.event d w) = none

/-- The events that have not been handled, in order. -/
def RuleRun.pending (s : RuleRun) : List Event := s.queue ++ s.memory.posted

/-- The setter has published its event; the port has its value once it has returned. -/
structure Announced (old v : Int32) (s : RuleRun) : Prop where
  behind : s.setter = .signal v ∨ s.setter = .store v ∨ s.setter = .returned
  before : s.setter ≠ .returned → s.memory.port.value = old
  value : s.setter = .returned → s.memory.port.value = v

/-- Where a run can be that has been in time or not (`q`). -/
inductive Course (d : DeviceState) (rule : Event → Option Int32) (id old v w : Int32)
    (s : RuleRun) (q : Prop) : Prop where
  | compares (hset : s.setter = .compare v) (hv : s.memory.port.value = old) (hr : s.rule = .idle)
      (he : s.pending = []) (hq : q)
  | publishes (hset : s.setter = .publish v) (hv : s.memory.port.value = old) (hr : s.rule = .idle)
      (he : s.pending = []) (hq : q)
  | announced (ha : Announced old v s) (hr : s.rule = .idle)
      (he : ∃ e, s.pending = [e] ∧ rule e = some w) (hq : q)
  | compare (ha : Announced old v s) (hr : s.rule = .compare w) (he : s.pending = []) (hq : q)
  | publish (ha : Announced old v s) (hr : s.rule = .publish w) (he : s.pending = []) (hq : q)
  | signal (ha : Announced old v s) (hr : s.rule = .signal w)
      (he : ∃ e, s.pending = [e] ∧ rule e = none) (hq : q)
  | store (ha : Announced old v s) (hr : s.rule = .store w)
      (he : ∃ e, s.pending = [e] ∧ rule e = none)
      (hq : q ↔ (d.isNetworkDevice = true → s.setter ≠ .signal v ∧
        s.memory.messages.getLast? = some (setMessage id w)))
  | returned (ha : s.setter = .signal v ∨ s.setter = .store v ∨ s.setter = .returned)
      (hr : s.rule = .returned) (he : s.pending = [] ∨ ∃ e, s.pending = [e] ∧ rule e = none)
      (hq : q ↔ s.setter = .returned ∧ s.Stays d w)

section Course

variable {d : DeviceState} {rule : Event → Option Int32} {id old v w : Int32} {s : RuleRun} {q q' : Prop}

theorem Course.congr (h : Course d rule id old v w s q) (hq : q' ↔ q) : Course d rule id old v w s q' := by
  rwa [propext hq]

variable (d rule) in
theorem pending_handOver (s : RuleRun) : (s.step d rule .handOver).pending = s.pending := by
  simp only [RuleRun.pending, RuleRun.step]
  cases s.memory.posted with
  | nil => simp
  | cons e es => simp

/-- A hand-over changes nothing but where an event is. -/
theorem Course.handOver (h : Course d rule id old v w s q) :
    Course d rule id old v w (s.step d rule .handOver) q := by
  have hp := pending_handOver d rule s
  cases h with
  | compares hset hv hr he hq => exact .compares hset hv hr (hp.trans he) hq
  | publishes hset hv hr he hq => exact .publishes hset hv hr (hp.trans he) hq
  | announced ha hr he hq =>
      obtain ⟨e, he, hrule⟩ := he
      exact .announced ⟨ha.1, ha.2, ha.3⟩ hr ⟨e, hp.trans he, hrule⟩ hq
  | compare ha hr he hq => exact .compare ⟨ha.1, ha.2, ha.3⟩ hr (hp.trans he) hq
  | publish ha hr he hq => exact .publish ⟨ha.1, ha.2, ha.3⟩ hr (hp.trans he) hq
  | signal ha hr he hq =>
      obtain ⟨e, he, hrule⟩ := he
      exact .signal ⟨ha.1, ha.2, ha.3⟩ hr ⟨e, hp.trans he, hrule⟩ hq
  | store ha hr he hq =>
      obtain ⟨e, he, hrule⟩ := he
      exact .store ⟨ha.1, ha.2, ha.3⟩ hr ⟨e, hp.trans he, hrule⟩ hq
  | returned ha hr he hq =>
      refine .returned ha hr ?_ hq
      rw [hp]
      exact he

/-- The processor takes an event off its queue. -/
theorem Course.handle (h : Course d rule id old v w s q) (he : s.enabled .handle) :
    Course d rule id old v w (s.step d rule .handle) q := by
  obtain ⟨hqueue, hidle⟩ := he
  obtain ⟨e', rest, hqueue⟩ := List.exists_cons_of_ne_nil hqueue
  have hcons : s.pending = e' :: (rest ++ s.memory.posted) := by
    rw [RuleRun.pending, hqueue]
    rfl
  have hbusy : ∀ c, s.rule = c → c ≠ .idle → c ≠ .returned → False := by
    intro c hr hne hne'
    rcases hidle with hidle | hidle
    · exact hne (hr.symm.trans hidle)
    · exact hne' (hr.symm.trans hidle)
  -- the one event there is was at the head
  have hone : ∀ {e}, s.pending = [e] → e' = e ∧ rest ++ s.memory.posted = [] := by
    intro e hp
    rw [hcons] at hp
    exact List.cons.inj hp
  cases h with
  | compares hset hv hr hp hq | publishes hset hv hr hp hq | compare ha hr hp hq
  | publish ha hr hp hq =>
      rw [hcons] at hp
      cases hp
  | announced ha hr hp hq =>
      obtain ⟨e, hp, hrule⟩ := hp
      obtain ⟨rfl, hrest⟩ := hone hp
      have hstep : s.step d rule .handle = { s with queue := rest, rule := .compare w } := by
        simp [RuleRun.step, hqueue, hrule]
      rw [hstep]
      exact .compare ⟨ha.1, ha.2, ha.3⟩ rfl hrest hq
  | signal ha hr hp hq => exact (hbusy _ hr (by simp) (by simp)).elim
  | store ha hr hp hq => exact (hbusy _ hr (by simp) (by simp)).elim
  | returned ha hr hp hq =>
      rcases hp with hp | ⟨e, hp, hrule⟩
      · rw [hcons] at hp
        cases hp
      · obtain ⟨rfl, hrest⟩ := hone hp
        have hstep : s.step d rule .handle = { s with queue := rest } := by
          simp [RuleRun.step, hqueue, hrule]
        rw [hstep]
        exact .returned ha hr (Or.inl hrest) hq

/-- The setter's step behind its event. -/
theorem Announced.setter (ha : Announced old v s) (he : s.setter ≠ .returned) :
    Announced old v (s.step d rule .setter) := by
  rcases ha.behind with hset | hset | hset
  · by_cases hd : d.isNetworkDevice = true
    · simp only [RuleRun.step, hset, SetCall.step, if_pos hd]
      exact ⟨Or.inr (Or.inl rfl), fun _ => ha.before he, fun h => by cases h⟩
    · simp only [RuleRun.step, hset, SetCall.step, if_neg hd]
      exact ⟨Or.inr (Or.inl rfl), fun _ => ha.before he, fun h => by cases h⟩
  · simp only [RuleRun.step, hset, SetCall.step]
    exact ⟨Or.inr (Or.inr rfl), fun h => absurd rfl h, fun _ => rfl⟩
  · exact absurd hset he

variable (d rule) in
theorem pending_setter (ha : Announced old v s) :
    (s.step d rule .setter).pending = s.pending := by
  rcases ha.behind with hset | hset | hset
  · by_cases hd : d.isNetworkDevice = true
    · simp only [RuleRun.step, hset, SetCall.step, if_pos hd]
      rfl
    · simp only [RuleRun.step, hset, SetCall.step, if_neg hd]
      rfl
  · simp only [RuleRun.step, hset, SetCall.step]
    rfl
  · simp only [RuleRun.step, hset, SetCall.step]
    rfl

/-- The setter's step. -/
theorem Course.setter (h : Course d rule id old v w s q) (hid : s.memory.port.id = id)
    (hrule : Answers d id v w rule) (hold : old ≠ v) (hne : w ≠ v) (he : s.enabled .setter) :
    Course d rule id old v w (s.step d rule .setter) q := by
  have he : s.setter ≠ .returned := he
  cases h with
  | compares hset hv hr hp hq =>
      have hchange : s.memory.port.value ≠ v := hv ▸ hold
      simp only [RuleRun.step, hset, SetCall.step, if_neg hchange]
      exact .publishes rfl hv hr hp hq
  | publishes hset hv hr hp hq =>
      simp only [RuleRun.step, hset, SetCall.step]
      refine .announced ⟨Or.inl rfl, fun _ => hv, fun h => by cases h⟩ hr
        ⟨s.memory.event d v, ?_, hrule.change _ hid⟩ hq
      obtain ⟨hqueue, hposted⟩ := List.append_eq_nil_iff.mp hp
      simp [RuleRun.pending, hqueue, hposted]
  | announced ha hr hp hq =>
      rw [← pending_setter d rule ha] at hp
      exact .announced (ha.setter he) hr hp hq
  | compare ha hr hp hq =>
      rw [← pending_setter d rule ha] at hp
      exact .compare (ha.setter he) hr hp hq
  | publish ha hr hp hq =>
      rw [← pending_setter d rule ha] at hp
      exact .publish (ha.setter he) hr hp hq
  | signal ha hr hp hq =>
      rw [← pending_setter d rule ha] at hp
      exact .signal (ha.setter he) hr hp hq
  | store ha hr hp hq =>
      rw [← pending_setter d rule ha] at hp
      refine .store (ha.setter he) hr hp (hq.trans ?_)
      rcases ha.behind with hset | hset | hset
      · by_cases hd : d.isNetworkDevice = true
        · -- the setter's message comes behind the rule's
          have hlast : setMessage id v ≠ setMessage id w :=
            fun h => hne (setMessage_inj h).2.symm
          simp [RuleRun.step, hset, SetCall.step, hd, hid, hlast]
        · simp [hd]
      · simp [RuleRun.step, hset, SetCall.step]
      · exact absurd hset he
  | returned ha hr hp hq =>
      have hnot : ¬ q := fun h => he (hq.mp h).1
      rcases ha with hset | hset | hset
      · by_cases hd : d.isNetworkDevice = true
        · simp only [RuleRun.step, hset, SetCall.step, if_pos hd]
          exact .returned (Or.inr (Or.inl rfl)) hr hp (iff_of_false hnot fun h => by cases h.1)
        · simp only [RuleRun.step, hset, SetCall.step, if_neg hd]
          exact .returned (Or.inr (Or.inl rfl)) hr hp (iff_of_false hnot fun h => by cases h.1)
      · simp only [RuleRun.step, hset, SetCall.step]
        exact .returned (Or.inr (Or.inr rfl)) hr hp
          (iff_of_false hnot fun h => hne h.2.1.symm)
      · exact absurd hset he

/-- The step of the rule's call. -/
theorem Course.call (h : Course d rule id old v w s q) (hid : s.memory.port.id = id)
    (hrule : Answers d id v w rule) (hne : w ≠ v) (he : s.enabled .rule) :
    Course d rule id old v w (s.step d rule .rule) (q ∧ s.InTime d old .rule) := by
  have hidle : ∀ c, s.rule = c → c = .idle ∨ c = .returned → False := by
    intro c hr hc
    refine he ?_
    rw [RuleRun.ruleIdle, hr]
    exact hc
  cases h with
  | compares hset hv hr hp hq => exact (hidle _ hr (Or.inl rfl)).elim
  | publishes hset hv hr hp hq => exact (hidle _ hr (Or.inl rfl)).elim
  | announced ha hr hp hq => exact (hidle _ hr (Or.inl rfl)).elim
  | returned ha hr hp hq => exact (hidle _ hr (Or.inr rfl)).elim
  | compare ha hr hp hq =>
      by_cases hv : s.memory.port.value = w
      · -- the call is swallowed
        have hset : s.setter ≠ .returned := fun hset => hne (hv.symm.trans (ha.value hset))
        have hlate : ¬ (q ∧ s.InTime d old .rule) := by
          intro h
          have htime := h.2
          simp only [RuleRun.InTime, hr] at htime
          exact hset (htime (hv.symm.trans (ha.before hset)))
        simp only [RuleRun.step, hr, SetCall.step, if_pos hv]
        exact .returned ha.behind rfl (Or.inl hp) (iff_of_false hlate fun h => hset h.1)
      · have htime : q ∧ s.InTime d old .rule := by
          refine ⟨hq, ?_⟩
          simp only [RuleRun.InTime, hr]
          intro hw
          by_contra hset
          exact hv ((ha.before hset).trans hw.symm)
        simp only [RuleRun.step, hr, SetCall.step, if_neg hv]
        exact .publish ⟨ha.1, ha.2, ha.3⟩ rfl hp htime
  | publish ha hr hp hq =>
      have htime : q ∧ s.InTime d old .rule := by
        refine ⟨hq, ?_⟩
        simp only [RuleRun.InTime, hr]
      simp only [RuleRun.step, hr, SetCall.step]
      refine .signal ⟨ha.1, ha.2, ha.3⟩ rfl ⟨s.memory.event d w, ?_, hrule.own _ hid⟩ htime
      obtain ⟨hqueue, hposted⟩ := List.append_eq_nil_iff.mp hp
      simp [RuleRun.pending, hqueue, hposted]
  | signal ha hr hp hq =>
      have hother : (∀ n, s.setter ≠ .signal n) ↔ s.setter ≠ .signal v := by
        constructor
        · intro h
          exact h v
        · intro h n hn
          rcases ha.behind with hset | hset | hset
          · exact h hset
          · rw [hset] at hn
            cases hn
          · rw [hset] at hn
            cases hn
      have htime : q ∧ s.InTime d old .rule ↔
          (d.isNetworkDevice = true → s.setter ≠ .signal v) := by
        simp only [RuleRun.InTime, hr, hother]
        exact and_iff_right hq
      by_cases hd : d.isNetworkDevice = true
      · simp only [RuleRun.step, hr, SetCall.step, if_pos hd]
        refine .store ⟨ha.1, ha.2, ha.3⟩ rfl hp (htime.trans ?_)
        simp [hid]
      · simp only [RuleRun.step, hr, SetCall.step, if_neg hd]
        refine .store ⟨ha.1, ha.2, ha.3⟩ rfl hp (htime.trans ?_)
        simp [hd]
  | store ha hr hp hq =>
      have htime : q ∧ s.InTime d old .rule ↔ q ∧ s.setter = .returned := by
        simp only [RuleRun.InTime, hr]
      simp only [RuleRun.step, hr, SetCall.step]
      refine .returned ha.behind rfl (Or.inr hp) (htime.trans ?_)
      rw [hq, and_comm]
      refine and_congr_right fun hset => ?_
      simp only [RuleRun.Stays, hid]
      have hset' : s.setter ≠ .signal v := by
        rw [hset]
        simp
      simp [hset']

end Course

/-! ## 4. Runs -/

/-- A port before the call; nothing has been published of it. -/
def RuleRun.begin (p : PortState) (messages : List Bytes) (v : Int32) : RuleRun where
  memory := { port := p, messages := messages }
  setter := .compare v

/-- A call does not change which port it is about. -/
theorem SetCall.step_port_id (d : DeviceState) (m : PortMemory) (c : SetCall) :
    (c.step d m).1.port.id = m.port.id := by
  cases c with
  | idle | publish | store | returned => rfl
  | compare n =>
      rw [SetCall.step]
      split <;> rfl
  | signal n =>
      rw [SetCall.step]
      split <;> rfl

theorem step_port_id (d : DeviceState) (rule : Event → Option Int32) (s : RuleRun) (a : RuleStep) :
    (s.step d rule a).memory.port.id = s.memory.port.id := by
  cases a with
  | setter => exact SetCall.step_port_id d s.memory s.setter
  | handOver => rfl
  | handle =>
      rw [RuleRun.step]
      split <;> rfl
  | rule => exact SetCall.step_port_id d s.memory s.rule

section Run

variable {d : DeviceState} {rule : Event → Option Int32} {p : PortState} {messages : List Bytes}
  {v w : Int32} {s : RuleRun} {tr : List (RuleRun × RuleStep)}

/-- The step lemma: whatever comes next, a run stays on its course, and has been in time if the step
    is. -/
theorem Course.step {id old : Int32} {q : Prop} {a : RuleStep} (h : Course d rule id old v w s q)
    (hid : s.memory.port.id = id) (hrule : Answers d id v w rule) (hold : old ≠ v) (hne : w ≠ v)
    (he : s.enabled a) : Course d rule id old v w (s.step d rule a) (q ∧ s.InTime d old a) := by
  cases a with
  | setter => exact (h.setter hid hrule hold hne he).congr (and_iff_left trivial)
  | handOver => exact h.handOver.congr (and_iff_left trivial)
  | handle => exact (h.handle he).congr (and_iff_left trivial)
  | rule => exact h.call hid hrule hne he

/-- The run lemma. -/
theorem ruleRun_course (hrun : (ruleRun d rule).Run (.begin p messages v) tr s)
    (hrule : Answers d p.id v w rule) (hold : p.value ≠ v) (hne : w ≠ v) :
    s.memory.port.id = p.id ∧
      Course d rule p.id p.value v w s (Machine.Steps (RuleRun.InTime d p.value) tr) := by
  induction hrun with
  | start => exact ⟨rfl, .compares rfl rfl rfl rfl Machine.steps_nil⟩
  | step h he hs ih =>
      cases hs
      obtain ⟨hid, hcourse⟩ := ih
      refine ⟨(step_port_id d rule _ _).trans hid, ?_⟩
      exact (hcourse.step hid hrule hold hne he).congr Machine.steps_snoc

/-- A run that has finished is one in which the rule has answered. -/
theorem Course.finished {id old : Int32} {q : Prop} (h : Course d rule id old v w s q)
    (hdone : s.finished) : q ↔ s.Stays d w := by
  obtain ⟨hset, hidle, hposted, hqueue⟩ := hdone
  have hnone : s.pending = [] := by
    rw [RuleRun.pending, hqueue, hposted]
    rfl
  have hpending : ∀ e, s.pending ≠ [e] := by
    intro e he
    rw [hnone] at he
    cases he
  have hbusy : ∀ c, s.rule = c → c ≠ .idle → c ≠ .returned → False := by
    intro c hr hne hne'
    rcases hidle with hidle | hidle
    · exact hne (hr.symm.trans hidle)
    · exact hne' (hr.symm.trans hidle)
  cases h with
  | compares hset' hv hr he hq => cases hset'.symm.trans hset
  | publishes hset' hv hr he hq => cases hset'.symm.trans hset
  | announced ha hr he hq =>
      obtain ⟨e, he, -⟩ := he
      exact absurd he (hpending e)
  | compare ha hr he hq => exact (hbusy _ hr (by simp) (by simp)).elim
  | publish ha hr he hq => exact (hbusy _ hr (by simp) (by simp)).elim
  | signal ha hr he hq => exact (hbusy _ hr (by simp) (by simp)).elim
  | store ha hr he hq => exact (hbusy _ hr (by simp) (by simp)).elim
  | returned ha hr he hq => exact hq.trans (and_iff_right hset)

end Run

/-- When everything has finished, the rule's value is the one that stays exactly when no step of
    the rule's call came too early. -/
theorem ruleRun_exact (d : DeviceState) (rule : Event → Option Int32) (p : PortState)
    (messages : List Bytes) (v w : Int32) (tr : List (RuleRun × RuleStep)) (s : RuleRun)
    (hrule : Answers d p.id v w rule) (hold : p.value ≠ v) (hne : w ≠ v)
    (hrun : (ruleRun d rule).Run (.begin p messages v) tr s) (hdone : s.finished) :
    s.Stays d w ↔ Machine.Steps (RuleRun.InTime d p.value) tr := by
  obtain ⟨-, hcourse⟩ := ruleRun_course hrun hrule hold hne
  exact (hcourse.finished hdone).symm

/-- A rule that sets every port that was set to `v` to `w`. -/
def instead (v w : Int32) (e : Event) : Option Int32 := if e.newValue = v then some w else none

theorem instead_answers {v w : Int32} (d : DeviceState) (id : Int32) (hne : w ≠ v) :
    Answers d id v w (instead v w) := by
  constructor
  · intro m hm
    exact if_pos rfl
  · intro m hm
    exact if_neg hne

/-- A heater that rules keep off: who sets it to 1 gets it set to 0. -/
def heaterPort : PortState := { id := 0, digital := true, output := true, value := 0 }

def heaterDevice : DeviceState := { id := 7, isVirtual := false, ports := ∅ }

/-- The rule has nothing to do before the setter has returned. -/
def patientRun : List RuleStep :=
  [.setter, .setter, .setter, .setter, .handOver, .handle, .rule, .rule, .rule, .rule, .handOver,
    .handle]

/-- The rule compares before the setter has stored. -/
def hastyRun : List RuleStep :=
  [.setter, .setter, .handOver, .handle, .rule, .setter, .setter]

theorem heater_runs (l : List RuleStep) {r : List (RuleRun × RuleStep) × RuleRun}
    (h : (ruleRun heaterDevice (instead 1 0)).exec [] (.begin heaterPort [] 1) l = some r) :
    (ruleRun heaterDevice (instead 1 0)).Run (.begin heaterPort [] 1) r.1 r.2 :=
  Machine.Run.start.exec h

theorem ruleRun_exact_heater : ∃ tr s,
    (ruleRun heaterDevice (instead 1 0)).Run (.begin heaterPort [] 1) tr s ∧ s.finished ∧
      (s.Stays heaterDevice 0 ↔
        Machine.Steps (RuleRun.InTime heaterDevice heaterPort.value) tr) := by
  obtain ⟨r, hr⟩ : ∃ r, (ruleRun heaterDevice (instead 1 0)).exec [] (.begin heaterPort [] 1)
    patientRun = some r := ⟨_, rfl⟩
  have hdone : r.2.finished := by
    cases hr
    exact ⟨rfl, Or.inr rfl, rfl, rfl⟩
  exact ⟨r.1, r.2, heater_runs _ hr, hdone, ruleRun_exact heaterDevice (instead 1 0) heaterPort [] 1
    0 r.1 r.2 (instead_answers _ _ (by decide)) (by decide) (by decide) (heater_runs _ hr) hdone⟩

/-- The heater stays on: the rule's call returns because the port has its old value still. -/
theorem not_ruleRun_heater :
    ¬ ∀ (d : DeviceState) (rule : Event → Option Int32) (p : PortState) (messages : List Bytes)
      (v w : Int32) (tr : List (RuleRun × RuleStep)) (s : RuleRun),
      Answers d p.id v w rule → p.value ≠ v → w ≠ v →
      (ruleRun d rule).Run (.begin p messages v) tr s → s.finished → s.Stays d w := by
  intro h
  obtain ⟨r, hr⟩ : ∃ r, (ruleRun heaterDevice (instead 1 0)).exec [] (.begin heaterPort [] 1)
    hastyRun = some r := ⟨_, rfl⟩
  have hdone : r.2.finished := by
    cases hr
    exact ⟨rfl, Or.inr rfl, rfl, rfl⟩
  have hstays := h heaterDevice (instead 1 0) heaterPort [] 1 0 r.1 r.2
    (instead_answers _ _ (by decide)) (by decide) (by decide) (heater_runs _ hr) hdone
  have hvalue : r.2.memory.port.value = 1 := by
    cases hr
    rfl
  rw [hstays.1] at hvalue
  revert hvalue
  decide

end Domoio
