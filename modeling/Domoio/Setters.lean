import Domoio.Digital
import Domoio.Rules

/-
  File:      Domoio/Setters.lean
  Subject:   Any number of `set_value` calls on one port, their steps in any order
             (src/models/port.cc; callers: the HTTP server's threads, the JavaScript thread).

  A call compares, publishes its event, signals the device and stores, and nothing holds the four
  together: `viritual_devices_mutex` of `DeviceState` is locked nowhere.

  * `settled_exact` -- the device was told the last event's value whenever no call has yet to signal,
    and the port has it whenever no call has yet to store, exactly in the runs in which every signal
    and every store is of that value or is not the last one;
  * `setters_agree` -- so in these runs the port, its last event and its last message agree whenever
    all calls have returned;
  * `serial_inOrder` -- runs in which a call starts when the others have returned are among them.
-/

namespace Domoio

open Lib

/-! ## 1. Calls -/

namespace SetCall

/-- The call has started and not returned. -/
def underWay : SetCall → Bool
  | .idle | .returned => false
  | .compare _ | .publish _ | .signal _ | .store _ => true

/-- The call has found another value and not signalled its own. -/
def signals : SetCall → Bool
  | .publish _ | .signal _ => true
  | .idle | .compare _ | .store _ | .returned => false

/-- The call has found another value and not stored its own. -/
def stores : SetCall → Bool
  | .publish _ | .signal _ | .store _ => true
  | .idle | .compare _ | .returned => false

theorem stores_of_idle {c : SetCall} (h : c.underWay = false) : c.signals = false ∧ c.stores = false := by
  cases c with
  | idle | returned => exact ⟨rfl, rfl⟩
  | compare | publish | signal | store => cases h

end SetCall

/-- The calls of each caller on a port. -/
structure Setters (ι : Type) where
  memory : PortMemory
  calls : ι → SetCall := fun _ => .idle

/-- What can happen next: a caller calls `set_value`, or its call takes a step. -/
inductive SettersStep (ι : Type) where
  | call (i : ι) (newValue : Int32)
  | advance (i : ι)

namespace Setters

variable {ι : Type} [DecidableEq ι]

def enabled (s : Setters ι) : SettersStep ι → Prop
  | .call i _ => (s.calls i).underWay = false
  | .advance i => (s.calls i).underWay = true

def step (d : DeviceState) (s : Setters ι) : SettersStep ι → Setters ι
  | .call i n => { s with calls := Function.update s.calls i (.compare n) }
  | .advance i =>
      let (memory, call) := (s.calls i).step d s.memory
      { memory, calls := Function.update s.calls i call }

/-- The callers of `set_value` on a port of `d`. -/
def machine (ι : Type) [DecidableEq ι] (d : DeviceState) :
    Machine (Setters ι) (SettersStep ι) Empty where
  enabled := enabled
  step s a := .ok (s.step d a)

/-- All calls have returned. -/
def finished (s : Setters ι) : Prop := ∀ i, (s.calls i).underWay = false

/-- The new value of the port's last event. -/
def announced (s : Setters ι) : Option Int32 := s.memory.posted.getLast?.map Event.newValue

/-- The port has the value of its last event, and the device was sent it last. -/
def Agree (s : Setters ι) : Prop := ∀ v, s.announced = some v →
  s.memory.port.value = v ∧ s.memory.messages.getLast? = some (setMessage s.memory.port.id v)

/-! ## 2. Settled states -/

/-- The last event's value was signalled last, once no call has yet to signal, and is stored, once
    no call has yet to store. -/
structure Settled (s : Setters ι) : Prop where
  signalled : (∀ i, (s.calls i).signals = false) → ∀ v, s.announced = some v →
    s.memory.messages.getLast? = some (setMessage s.memory.port.id v)
  stored : (∀ i, (s.calls i).stores = false) → ∀ v, s.announced = some v → s.memory.port.value = v

/-- A call signals, or stores, the value of the last event, or another call has yet to. -/
def InOrder (s : Setters ι) : SettersStep ι → Prop
  | .call _ _ => True
  | .advance i =>
      match s.calls i with
      | .signal n => s.announced = some n ∨ ∃ j, j ≠ i ∧ (s.calls j).signals = true
      | .store n => s.announced = some n ∨ ∃ j, j ≠ i ∧ (s.calls j).stores = true
      | .idle | .compare _ | .publish _ | .returned => True

/-- Whoever has published has left an event. -/
def Published (s : Setters ι) : Prop := ∀ i n,
  s.calls i = .signal n ∨ s.calls i = .store n → ∃ v, s.announced = some v

omit [DecidableEq ι] in
theorem Settled.agree {s : Setters ι} (h : Settled s) (hf : s.finished) : s.Agree := by
  intro v hv
  exact ⟨h.stored (fun i => (SetCall.stores_of_idle (hf i)).2) v hv,
    h.signalled (fun i => (SetCall.stores_of_idle (hf i)).1) v hv⟩

section Step

variable {d : DeviceState} {s : Setters ι} {i : ι} {n : Int32}

/-- The acting caller and the others. -/
theorem forall_update (i : ι) (c : SetCall) (q : SetCall → Bool) :
    (∀ j, q (Function.update s.calls i c j) = false) ↔
      q c = false ∧ ∀ j, j ≠ i → q (s.calls j) = false :=
  Function.forall_update_iff s.calls fun _ c => q c = false

/-- A step that leaves the memory, of a call that has nothing to signal or to store. -/
theorem Settled.quiet (h : Settled s) (hi : (s.calls i).signals = false ∧ (s.calls i).stores = false)
    (c : SetCall) : Settled { s with calls := Function.update s.calls i c } := by
  constructor
  · intro hall
    refine h.signalled fun j => ?_
    by_cases hj : j = i
    · rw [hj]
      exact hi.1
    · exact ((forall_update i c SetCall.signals).mp hall).2 j hj
  · intro hall
    refine h.stored fun j => ?_
    by_cases hj : j = i
    · rw [hj]
      exact hi.2
    · exact ((forall_update i c SetCall.stores).mp hall).2 j hj

/-- A step to a call that has yet to signal. -/
theorem settled_signals (m : PortMemory) (c : SetCall) (hc : c.signals = true ∧ c.stores = true) :
    Settled { memory := m, calls := Function.update s.calls i c } := by
  constructor
  · intro hall
    have hi := ((forall_update i c SetCall.signals).mp hall).1
    rw [hc.1] at hi
    cases hi
  · intro hall
    have hi := ((forall_update i c SetCall.stores).mp hall).1
    rw [hc.2] at hi
    cases hi

omit [DecidableEq ι] in
/-- Where no other call has yet to, the condition is on the value alone. -/
theorem or_others_iff {q : Prop} (f : SetCall → Bool) :
    (q ∨ ∃ j, j ≠ i ∧ f (s.calls j) = true) ↔ ((∀ j, j ≠ i → f (s.calls j) = false) → q) := by
  constructor
  · intro h hall
    rcases h with h | ⟨j, hj, hf⟩
    · exact h
    · rw [hall j hj] at hf
      cases hf
  · intro h
    by_cases hall : ∀ j, j ≠ i → f (s.calls j) = false
    · exact Or.inl (h hall)
    · push Not at hall
      obtain ⟨j, hj, hf⟩ := hall
      exact Or.inr ⟨j, hj, by simpa using hf⟩

/-- A signal leaves a settled state so exactly when it is of the last event's value or another call
    has yet to signal. -/
theorem settled_signal (hp : Published s) (hd : d.isNetworkDevice = true)
    (hi : s.calls i = .signal n) : Settled (s.step d (.advance i)) ↔ InOrder s (.advance i) := by
  have hstep : s.step d (.advance i) =
      { memory := { s.memory with messages := s.memory.messages ++ [setMessage s.memory.port.id n] }
        calls := Function.update s.calls i (.store n) } := by
    simp only [step, hi, SetCall.step, if_pos hd]
  have horder : InOrder s (.advance i) ↔
      ((∀ j, j ≠ i → (s.calls j).signals = false) → s.announced = some n) := by
    simp only [InOrder, hi]
    exact or_others_iff SetCall.signals
  rw [hstep, horder]
  constructor
  · intro h' hall
    obtain ⟨v, hv⟩ := hp i n (Or.inl hi)
    have hlast := h'.signalled ((forall_update i _ SetCall.signals).mpr ⟨rfl, hall⟩) v hv
    rw [List.getLast?_concat, Option.some.injEq] at hlast
    rw [hv, (setMessage_inj hlast).2]
  · intro horder
    constructor
    · intro hall v hv
      have hn := horder ((forall_update i _ SetCall.signals).mp hall).2
      have hvn : some v = some n := hv.symm.trans hn
      rw [List.getLast?_concat, Option.some.inj hvn]
    · intro hall
      cases ((forall_update i _ SetCall.stores).mp hall).1

/-- A store likewise. -/
theorem settled_store (h : Settled s) (hp : Published s) (hi : s.calls i = .store n) :
    Settled (s.step d (.advance i)) ↔ InOrder s (.advance i) := by
  have hstep : s.step d (.advance i) =
      { memory := { s.memory with port := { s.memory.port with value := n } }
        calls := Function.update s.calls i .returned } := by
    simp only [step, hi, SetCall.step]
  have horder : InOrder s (.advance i) ↔
      ((∀ j, j ≠ i → (s.calls j).stores = false) → s.announced = some n) := by
    simp only [InOrder, hi]
    exact or_others_iff SetCall.stores
  rw [hstep, horder]
  constructor
  · intro h' hall
    obtain ⟨v, hv⟩ := hp i n (Or.inr hi)
    have hvalue := h'.stored ((forall_update i _ SetCall.stores).mpr ⟨rfl, hall⟩) v hv
    have hnv : n = v := hvalue
    rw [hv, hnv]
  · intro horder
    constructor
    · intro hall
      refine h.signalled fun j => ?_
      by_cases hj : j = i
      · rw [hj, hi]
        rfl
      · exact ((forall_update i _ SetCall.signals).mp hall).2 j hj
    · intro hall v hv
      have hn := horder ((forall_update i _ SetCall.stores).mp hall).2
      have hvn : some v = some n := hv.symm.trans hn
      exact (Option.some.inj hvn).symm

/-- A step of a settled state leaves it so exactly when it is in order. -/
theorem settled_step {a : SettersStep ι} (h : Settled s) (hp : Published s)
    (hd : d.isNetworkDevice = true) (he : s.enabled a) : Settled (s.step d a) ↔ InOrder s a := by
  cases a with
  | call i n => exact iff_of_true (h.quiet (SetCall.stores_of_idle he) _) trivial
  | advance i =>
      cases hi : s.calls i with
      | idle | returned =>
          have hunder : (s.calls i).underWay = true := he
          rw [hi] at hunder
          cases hunder
      | compare n =>
          refine iff_of_true ?_ (by simp only [InOrder, hi])
          have hquiet : (s.calls i).signals = false ∧ (s.calls i).stores = false := by
            rw [hi]
            exact ⟨rfl, rfl⟩
          simp only [step, hi, SetCall.step]
          split
          · exact h.quiet hquiet _
          · exact h.quiet hquiet _
      | publish n =>
          refine iff_of_true ?_ (by simp only [InOrder, hi])
          simp only [step, hi, SetCall.step]
          exact settled_signals _ _ ⟨rfl, rfl⟩
      | signal n => exact settled_signal hp hd hi
      | store n => exact settled_store h hp hi

/-- Whoever has published still has left an event. -/
theorem published_step {a : SettersStep ι} (hp : Published s) (hd : d.isNetworkDevice = true)
    (he : s.enabled a) : Published (s.step d a) := by
  have hupdate : ∀ {m : PortMemory} {i : ι} {c : SetCall},
      (∀ v, s.announced = some v → ∃ v', m.posted.getLast?.map Event.newValue = some v') →
      (∀ n, c = .signal n ∨ c = .store n → ∃ v', m.posted.getLast?.map Event.newValue = some v') →
      Published { memory := m, calls := Function.update s.calls i c } := by
    intro m i c hm hc j n hj
    have hj : Function.update s.calls i c j = .signal n ∨ Function.update s.calls i c j = .store n := hj
    by_cases hji : j = i
    · rw [hji, Function.update_self] at hj
      exact hc n hj
    · rw [Function.update_of_ne hji] at hj
      obtain ⟨v, hv⟩ := hp j n hj
      exact hm v hv
  cases a with
  | call i n => exact hupdate (fun v hv => ⟨v, hv⟩) (by simp)
  | advance i =>
      cases hi : s.calls i with
      | idle | returned =>
          have hunder : (s.calls i).underWay = true := he
          rw [hi] at hunder
          cases hunder
      | compare n =>
          simp only [step, hi, SetCall.step]
          split
          · exact hupdate (fun v hv => ⟨v, hv⟩) (by simp)
          · exact hupdate (fun v hv => ⟨v, hv⟩) (by simp)
      | publish n =>
          simp only [step, hi, SetCall.step]
          exact hupdate (fun v hv => ⟨n, by simp [PortMemory.event]⟩)
            (fun m _ => ⟨n, by simp [PortMemory.event]⟩)
      | signal n =>
          simp only [step, hi, SetCall.step, if_pos hd]
          exact hupdate (fun v hv => ⟨v, hv⟩) fun m _ => hp i n (Or.inl hi)
      | store n =>
          simp only [step, hi, SetCall.step]
          exact hupdate (fun v hv => ⟨v, hv⟩) (by simp)

end Step

/-! ## 3. Runs -/

/-- The port before any call. -/
def fresh (p : PortState) : Setters ι := { memory := { port := p } }

omit [DecidableEq ι] in
theorem settled_fresh (p : PortState) : Settled (fresh p : Setters ι) where
  signalled _ v hv := by cases hv
  stored _ v hv := by cases hv

omit [DecidableEq ι] in
theorem published_fresh (p : PortState) : Published (fresh p : Setters ι) := by
  intro i n hi
  rcases hi with hi | hi <;> cases hi

variable {d : DeviceState} {p : PortState} {tr : List (Setters ι × SettersStep ι)} {s : Setters ι}

/-- A run stays settled exactly when all its steps are in order. -/
theorem settled_exact (hd : d.isNetworkDevice = true) (hrun : (machine ι d).Run (fresh p) tr s) :
    Machine.States Settled tr s ↔ Machine.Steps InOrder tr := by
  refine hrun.exact (J := fun s => Settled s ∧ Published s) ⟨settled_fresh p, published_fresh p⟩
    (fun _ h => h.1) ?_ ?_
  · intro s a s' hJ he hs hq
    cases hs
    exact ⟨(settled_step hJ.1 hJ.2 hd he).mpr hq, published_step hJ.2 hd he⟩
  · intro s a s' hJ he hs hq hP
    cases hs
    exact hq ((settled_step hJ.1 hJ.2 hd he).mp hP)

/-- In a run whose steps are in order the port, its last event and the last message to its device
    agree whenever all calls have returned. -/
theorem setters_agree (hd : d.isNetworkDevice = true) (hrun : (machine ι d).Run (fresh p) tr s)
    (hsteps : Machine.Steps InOrder tr) : Machine.States (fun s => s.finished → s.Agree) tr s :=
  ((settled_exact hd hrun).mpr hsteps).mono fun _ h hf => h.agree hf

/-! ## 4. One call after the other -/

/-- A call starts when the others have returned. -/
def Serial (s : Setters ι) : SettersStep ι → Prop
  | .call _ _ => s.finished
  | .advance _ => True

/-- At most one call is under way, and what it has published is the last event. -/
structure Alone (s : Setters ι) : Prop where
  one : ∀ i j, (s.calls i).underWay = true → (s.calls j).underWay = true → i = j
  last : ∀ i n, s.calls i = .signal n ∨ s.calls i = .store n → s.announced = some n

omit [DecidableEq ι] in
theorem Alone.inOrder (h : Alone s) (a : SettersStep ι) : InOrder s a := by
  cases a with
  | call i n => trivial
  | advance i =>
      cases hi : s.calls i with
      | idle | compare | publish | returned => simp only [InOrder, hi]
      | signal n =>
          simp only [InOrder, hi]
          exact Or.inl (h.last i n (Or.inl hi))
      | store n =>
          simp only [InOrder, hi]
          exact Or.inl (h.last i n (Or.inr hi))

/-- The acting call is the one that is under way. -/
theorem Alone.update {i : ι} {c : SetCall} {m : PortMemory}
    (hothers : ∀ j, j ≠ i → (s.calls j).underWay = false)
    (hlast : ∀ n, c = .signal n ∨ c = .store n → m.posted.getLast?.map Event.newValue = some n) :
    Alone { memory := m, calls := Function.update s.calls i c } := by
  have hacting : ∀ j, (Function.update s.calls i c j).underWay = true → j = i := by
    intro j hj
    by_contra hne
    rw [Function.update_of_ne hne, hothers j hne] at hj
    cases hj
  constructor
  · intro j k hj hk
    exact (hacting j hj).trans (hacting k hk).symm
  · intro j n hj
    have hj : Function.update s.calls i c j = .signal n ∨ Function.update s.calls i c j = .store n := hj
    by_cases hji : j = i
    · rw [hji, Function.update_self] at hj
      exact hlast n hj
    · rw [Function.update_of_ne hji] at hj
      have hidle := hothers j hji
      rcases hj with hj | hj <;> rw [hj] at hidle <;> cases hidle

theorem Alone.step (h : Alone s) {a : SettersStep ι} (hd : d.isNetworkDevice = true)
    (he : s.enabled a) (hserial : Serial s a) : Alone (s.step d a) := by
  cases a with
  | call i n => exact Alone.update (fun j _ => hserial j) (by simp)
  | advance i =>
      have hothers : ∀ j, j ≠ i → (s.calls j).underWay = false := by
        intro j hj
        by_contra hunder
        exact hj (h.one j i (by simpa using hunder) he)
      cases hi : s.calls i with
      | idle | returned =>
          have hunder : (s.calls i).underWay = true := he
          rw [hi] at hunder
          cases hunder
      | compare n =>
          simp only [Setters.step, hi, SetCall.step]
          split
          · exact Alone.update hothers (by simp)
          · exact Alone.update hothers (by simp)
      | publish n =>
          simp only [Setters.step, hi, SetCall.step]
          refine Alone.update hothers fun m hm => ?_
          rcases hm with hm | hm
          · cases hm
            simp [PortMemory.event]
          · cases hm
      | signal n =>
          simp only [Setters.step, hi, SetCall.step, if_pos hd]
          refine Alone.update hothers fun m hm => ?_
          rcases hm with hm | hm
          · cases hm
          · cases hm
            exact h.last i n (Or.inl hi)
      | store n =>
          simp only [Setters.step, hi, SetCall.step]
          exact Alone.update hothers (by simp)

/-- A run in which a call starts when the others have returned is in order. -/
theorem serial_inOrder (hd : d.isNetworkDevice = true) (hrun : (machine ι d).Run (fresh p) tr s)
    (hserial : Machine.Steps Serial tr) : Machine.Steps InOrder tr := by
  have hstart : Alone (fresh p : Setters ι) := by
    constructor
    · intro i j hi
      cases hi
    · intro i n hi
      rcases hi with hi | hi <;> cases hi
  have halone : Machine.States Alone tr s := by
    refine hrun.invariant hstart ?_ hserial
    intro s a s' hJ he hq hs
    cases hs
    exact hJ.step hd he hq
  intro q hq
  exact (halone.1 q hq).inOrder q.2

/-! ## 5. Two callers -/

def thermometer : DeviceState := .new { id := 5 }

def thermometerPort : PortState := { id := 3, digital := false, output := true }

instance (s : Setters Bool) : (a : SettersStep Bool) → Decidable ((machine Bool thermometer).enabled s a)
  | .call i _ => inferInstanceAs (Decidable ((s.calls i).underWay = false))
  | .advance i => inferInstanceAs (Decidable ((s.calls i).underWay = true))

/-- One caller sets the port, then the other. -/
def oneByOne : List (SettersStep Bool) :=
  [.call true 1, .advance true, .advance true, .advance true, .advance true,
    .call false 2, .advance false, .advance false, .advance false, .advance false]

/-- Two calls publish in turn; the first signals last. -/
def crossed : List (SettersStep Bool) :=
  [.call true 1, .call false 2, .advance true, .advance false, .advance true, .advance false,
    .advance false, .advance true, .advance true, .advance false]

instance (s : Setters Bool) (a : SettersStep Bool) : Decidable (Serial s a) :=
  match a with
  | .call _ _ => inferInstanceAs (Decidable (∀ i, (s.calls i).underWay = false))
  | .advance _ => .isTrue trivial

theorem setters_agree_oneByOne : ∃ tr s,
    (machine Bool thermometer).exec [] (fresh thermometerPort) oneByOne = some (tr, s) ∧
      Machine.States (fun s => s.finished → s.Agree) tr s := by
  obtain ⟨⟨tr, s⟩, he⟩ : ∃ r, (machine Bool thermometer).exec [] (fresh thermometerPort) oneByOne =
      some r := Option.isSome_iff_exists.mp (by decide)
  have hall : ((machine Bool thermometer).exec [] (fresh thermometerPort) oneByOne).all (fun r =>
      ∀ q ∈ r.1, Serial q.1 q.2) = true := by decide
  rw [he] at hall
  have hserial : ∀ q ∈ tr, Serial q.1 q.2 := of_decide_eq_true hall
  have hrun := Machine.Run.start.exec he
  exact ⟨tr, s, he, setters_agree rfl hrun (serial_inOrder rfl hrun hserial)⟩

/-- The port and its last event are at 2, the device was sent 1 last. -/
theorem not_agree_crossed :
    ¬ ∀ (d : DeviceState) (p : PortState) (tr : List (Setters Bool × SettersStep Bool))
      (s : Setters Bool), d.isNetworkDevice = true → (machine Bool d).Run (fresh p) tr s →
        Machine.States (fun s => s.finished → s.Agree) tr s := by
  intro h
  obtain ⟨⟨tr, s⟩, he⟩ : ∃ r, (machine Bool thermometer).exec [] (fresh thermometerPort) crossed =
      some r := Option.isSome_iff_exists.mp (by decide)
  have hfinal : ((machine Bool thermometer).exec [] (fresh thermometerPort) crossed).all (fun r =>
      (∀ i, (r.2.calls i).underWay = false) ∧ r.2.announced = some 2 ∧
        r.2.memory.messages.getLast? ≠ some (setMessage r.2.memory.port.id 2)) = true := by decide
  rw [he] at hfinal
  obtain ⟨hfinished, hlast, hmessage⟩ := of_decide_eq_true hfinal
  have hagree := (h thermometer thermometerPort tr s rfl (Machine.Run.start.exec he)).2 hfinished
  exact hmessage (hagree 2 hlast).2

end Setters

end Domoio
