import Mathlib.Data.List.Basic

/-
  File:      Domoio/Lib/Machine.lean
  Subject:   Deterministic machines whose step can fail, and their runs.

  A machine takes one labelled step at a time; all nondeterminism is in the label. A step either
  gives the next state or a failure that ends the run. A run carries its trace: the state and the
  label of every completed step.

  * `Run.invariant` -- what one step keeps (under a condition on the step) a whole run keeps;
  * `Run.steps` -- what the invariant implies of a step holds of every step of a run;
  * `Run.exact` -- where the condition is also necessary step by step, a run keeps the property
    in every state exactly when every one of its steps meets the condition;
  * `Run.map` -- what another machine simulates step by step is a run of it;
  * `exec` -- a run computed from its labels, `Run.exec` that it is one;
  * `track` -- a machine with a history variable and a narrower choice of labels;
  * `family`, `Run.exact_family` -- copies of a machine that step one at a time.
-/

namespace Lib

/-- A machine: which labels a state admits, and what the step does. -/
structure Machine (σ α φ : Type*) where
  enabled : σ → α → Prop
  step : σ → α → Except φ σ

namespace Machine

variable {σ α φ : Type*}

/-- Runs from `s₀`, with the trace of their completed steps. -/
inductive Run (M : Machine σ α φ) (s₀ : σ) : List (σ × α) → σ → Prop where
  | start : Run M s₀ [] s₀
  | step {tr : List (σ × α)} {s s' : σ} {a : α} (h : Run M s₀ tr s) (he : M.enabled s a)
      (hs : M.step s a = .ok s') : Run M s₀ (tr ++ [(s, a)]) s'

/-- Every step of the trace meets `Q`. -/
def Steps (Q : σ → α → Prop) (tr : List (σ × α)) : Prop := ∀ p ∈ tr, Q p.1 p.2

/-- Every state of the run, its last one included, meets `P`. -/
def States (P : σ → Prop) (tr : List (σ × α)) (s : σ) : Prop := (∀ p ∈ tr, P p.1) ∧ P s

variable {M : Machine σ α φ} {s₀ s : σ} {tr : List (σ × α)} {P J : σ → Prop} {Q : σ → α → Prop}

@[simp] theorem steps_nil : Steps Q ([] : List (σ × α)) := by simp [Steps]

@[simp] theorem steps_snoc {a : α} : Steps Q (tr ++ [(s, a)]) ↔ Steps Q tr ∧ Q s a := by
  simp only [Steps, List.mem_append, List.mem_singleton]
  constructor
  · intro h
    exact ⟨fun p hp => h p (Or.inl hp), h (s, a) (Or.inr rfl)⟩
  · rintro ⟨h, ha⟩ p (hp | rfl)
    · exact h p hp
    · exact ha

@[simp] theorem states_nil : States P ([] : List (σ × α)) s ↔ P s := by simp [States]

@[simp] theorem states_snoc {a : α} {s' : σ} :
    States P (tr ++ [(s, a)]) s' ↔ States P tr s ∧ P s' := by
  simp only [States, List.mem_append, List.mem_singleton]
  constructor
  · intro hex
    rcases hex with ⟨h, h'⟩
    exact ⟨⟨fun p hp => h p (Or.inl hp), h (s, a) (Or.inr rfl)⟩, h'⟩
  · intro hex
    rcases hex with ⟨⟨h, hs⟩, h'⟩
    refine ⟨?_, h'⟩
    rintro p (hp | rfl)
    · exact h p hp
    · exact hs

theorem States.mono {P' : σ → Prop} (hPP : ∀ s, P s → P' s) (h : States P tr s) :
    States P' tr s :=
  ⟨fun p hp => hPP _ (h.1 p hp), hPP _ h.2⟩

/-- The invariant rule: a step that meets `Q` keeps `J`, so a run of such steps keeps `J`. -/
theorem Run.invariant (hrun : Run M s₀ tr s) (h0 : J s₀)
    (hstep : ∀ s a s', J s → M.enabled s a → Q s a → M.step s a = .ok s' → J s')
    (hQ : Steps Q tr) : States J tr s := by
  induction hrun with
  | start => simpa using h0
  | step h he hs ih =>
      rw [steps_snoc] at hQ
      have hJ := ih hQ.1
      exact states_snoc.mpr ⟨hJ, hstep _ _ _ hJ.2 he hQ.2 hs⟩

/-- The invariant rule without a condition on the steps. -/
theorem Run.invariant_all (hrun : Run M s₀ tr s) (h0 : J s₀)
    (hstep : ∀ s a s', J s → M.enabled s a → M.step s a = .ok s' → J s') : States J tr s :=
  hrun.invariant (Q := fun _ _ => True) h0 (fun s a s' hJ he _ hs => hstep s a s' hJ he hs)
    (fun _ _ => trivial)

/-- What an invariant implies of every step holds of the steps of a run. -/
theorem Run.steps (hrun : Run M s₀ tr s) (h0 : J s₀)
    (hstep : ∀ s a s', J s → M.enabled s a → M.step s a = .ok s' → J s' ∧ Q s a) :
    Steps Q tr := by
  have hboth : J s ∧ Steps Q tr := by
    induction hrun with
    | start => exact ⟨h0, steps_nil⟩
    | step h he hs ih =>
        obtain ⟨hJ, hQ⟩ := hstep _ _ _ ih.1 he hs
        exact ⟨hJ, steps_snoc.mpr ⟨ih.2, hQ⟩⟩
  exact hboth.2

/-- The simulation rule: where steps in states with the invariant are steps of another machine, runs
    are runs of it. -/
theorem Run.map {σ' α' φ' : Type*} {M' : Machine σ' α' φ'} {g : σ → σ'} {l : α → α'}
    (hrun : Run M s₀ tr s) (h0 : J s₀)
    (hstep : ∀ s a s', J s → M.enabled s a → M.step s a = .ok s' →
      J s' ∧ M'.enabled (g s) (l a) ∧ M'.step (g s) (l a) = .ok (g s')) :
    J s ∧ Run M' (g s₀) (tr.map fun p => (g p.1, l p.2)) (g s) := by
  induction hrun with
  | start => exact ⟨h0, .start⟩
  | step h he hs ih =>
      obtain ⟨hJ, he', hs'⟩ := hstep _ _ _ ih.1 he hs
      rw [List.map_append]
      exact ⟨hJ, ih.2.step he' hs'⟩

/-- The exactness rule. `J` is the invariant behind `P`: a step that meets `Q` keeps it, and a
    step that does not leaves a state without `P`. Then a run has `P` in all its states exactly
    when all its steps meet `Q`. -/
theorem Run.exact (hrun : Run M s₀ tr s) (h0 : J s₀) (hP : ∀ s, J s → P s)
    (hkeep : ∀ s a s', J s → M.enabled s a → M.step s a = .ok s' → Q s a → J s')
    (hbreak : ∀ s a s', J s → M.enabled s a → M.step s a = .ok s' → ¬ Q s a → ¬ P s') :
    States P tr s ↔ Steps Q tr := by
  have hfwd : ∀ {tr s}, Run M s₀ tr s → Steps Q tr → States J tr s := fun h hQ =>
    h.invariant h0 (fun s a s' hJ he hq hs => hkeep s a s' hJ he hs hq) hQ
  constructor
  · intro hS
    -- by the run's last step: the steps before it meet `Q`, hence `J` held before it
    induction hrun with
    | start => exact steps_nil
    | step h he hs ih =>
        rw [states_snoc] at hS
        have hQ := ih hS.1
        refine steps_snoc.mpr ⟨hQ, Classical.byContradiction fun hn => ?_⟩
        exact hbreak _ _ _ (hfwd h hQ).2 he hs hn hS.2
  · intro hQ
    exact (hfwd hrun hQ).mono hP

/-- The run on a list of labels, where every label is enabled and no step fails. -/
def exec (M : Machine σ α φ) [∀ s a, Decidable (M.enabled s a)] :
    List (σ × α) → σ → List α → Option (List (σ × α) × σ)
  | tr, s, [] => some (tr, s)
  | tr, s, a :: l =>
      if M.enabled s a then
        match M.step s a with
        | .ok s' => exec M (tr ++ [(s, a)]) s' l
        | .error _ => none
      else none

theorem Run.exec [∀ s a, Decidable (M.enabled s a)] (hrun : Run M s₀ tr s) {l : List α}
    {r : List (σ × α) × σ} (h : M.exec tr s l = some r) : Run M s₀ r.1 r.2 := by
  induction l generalizing tr s with
  | nil =>
      cases h
      exact hrun
  | cons a l ih =>
      rw [Machine.exec] at h
      split at h
      · rename_i he
        split at h
        · rename_i s' hs
          exact ih (hrun.step he hs) h
        · cases h
      · cases h

/-- The machine with a history variable: `g` updates it at every completed step. Of the enabled
    labels those that meet `E` remain. -/
def track {γ : Type*} (M : Machine σ α φ) (E : σ → α → Prop) (g : γ → σ → α → γ) :
    Machine (σ × γ) α φ where
  enabled s a := M.enabled s.1 a ∧ E s.1 a
  step s a := (M.step s.1 a).map fun s' => (s', g s.2 s.1 a)

/-- A step of the tracked machine is one of the machine. -/
theorem track_step {γ : Type*} {E : σ → α → Prop} {g : γ → σ → α → γ} {s s' : σ × γ} {a : α}
    (hs : (M.track E g).step s a = .ok s') :
    M.step s.1 a = .ok s'.1 ∧ s'.2 = g s.2 s.1 a := by
  cases hm : M.step s.1 a with
  | error e =>
      simp only [track, hm] at hs
      cases hs
  | ok t =>
      simp only [track, hm] at hs
      cases hs
      exact ⟨rfl, rfl⟩

/-- Copies of a machine, of which one at a time takes a step. -/
def family (M : Machine σ α φ) (ι : Type*) [DecidableEq ι] : Machine (ι → σ) (ι × α) φ where
  enabled s a := M.enabled (s a.1) a.2
  step s a := (M.step (s a.1) a.2).map (Function.update s a.1)

section Family

variable {ι : Type*} [DecidableEq ι]

theorem family_step {s s' : ι → σ} {a : ι × α} (hs : (M.family ι).step s a = .ok s') :
    ∃ t, M.step (s a.1) a.2 = .ok t ∧ s' = Function.update s a.1 t := by
  cases hm : M.step (s a.1) a.2 with
  | error e =>
      simp only [family, hm] at hs
      cases hs
  | ok t =>
      simp only [family, hm] at hs
      cases hs
      exact ⟨t, rfl, rfl⟩

/-- The exactness rule, for every copy at once. -/
theorem Run.exact_family {s₀ s : ι → σ} {tr : List ((ι → σ) × ι × α)}
    (hrun : Run (M.family ι) s₀ tr s) (h0 : ∀ i, J (s₀ i)) (hP : ∀ s, J s → P s)
    (hkeep : ∀ s a s', J s → M.enabled s a → M.step s a = .ok s' → Q s a → J s')
    (hbreak : ∀ s a s', J s → M.enabled s a → M.step s a = .ok s' → ¬ Q s a → ¬ P s') :
    States (fun s => ∀ i, P (s i)) tr s ↔ Steps (fun s a => Q (s a.1) a.2) tr := by
  refine hrun.exact (J := fun s => ∀ i, J (s i)) h0 (fun s h i => hP _ (h i)) ?_ ?_
  · intro s a s' hJ he hs hq i
    obtain ⟨t, ht, rfl⟩ := family_step hs
    by_cases hi : i = a.1
    · rw [hi, Function.update_self]
      exact hkeep _ _ _ (hJ a.1) he ht hq
    · rw [Function.update_of_ne hi]
      exact hJ i
  · intro s a s' hJ he hs hq hP'
    obtain ⟨t, ht, rfl⟩ := family_step hs
    have hcopy := hP' a.1
    rw [Function.update_self] at hcopy
    exact hbreak _ _ _ (hJ a.1) he ht hq hcopy

end Family

end Machine

end Lib
