import Domoio.Lib.Machine
import Mathlib.Logic.Function.Basic

/-
  File:      Domoio/Lib/ReadModifyWrite.lean
  Subject:   Two clients that load a value, change their copy and store it.

  Nothing guards a client's two moves. It overtakes the other when it stores while the other has its
  copy already: then the other stores what it made of the old value, and the first store is lost
  (`rmw_final`). Otherwise the changes are made one after the other.
-/

namespace Lib

/-- How far a client is. -/
inductive Progress (V : Type*) where
  | waiting
  | loaded (copy : V)
  | stored

/-- The value and the two clients. -/
structure Shared (V : Type*) where
  value : V
  progress : Bool → Progress V

inductive Move where
  | load (i : Bool)
  | store (i : Bool)

namespace Shared

variable {V : Type*}

def begin (v : V) : Shared V := ⟨v, fun _ => .waiting⟩

def enabled (s : Shared V) : Move → Prop
  | .load i => s.progress i = .waiting
  | .store i => ∃ copy, s.progress i = .loaded copy

/-- Client `i` stores what `f i` makes of its copy. -/
def step (f : Bool → V → V) (s : Shared V) : Move → Except Unit (Shared V)
  | .load i => .ok { s with progress := Function.update s.progress i (.loaded s.value) }
  | .store i =>
      match s.progress i with
      | .loaded copy => .ok ⟨f i copy, Function.update s.progress i .stored⟩
      | .waiting | .stored => .error ()

theorem step_store {f : Bool → V → V} {s : Shared V} {i : Bool} {copy : V}
    (h : s.progress i = .loaded copy) :
    s.step f (.store i) = .ok ⟨f i copy, Function.update s.progress i .stored⟩ := by
  simp only [step, h]

end Shared

/-- The two clients. -/
def rmw {V : Type*} (f : Bool → V → V) : Machine (Shared V) Move Unit :=
  ⟨Shared.enabled, Shared.step f⟩

/-- In this run client `i` stores while the other one has loaded and not stored. -/
def Overtakes {V : Type*} (tr : List (Shared V × Move)) (i : Bool) : Prop :=
  ∃ p ∈ tr, p.2 = .store i ∧ ∃ copy, p.1.progress (!i) = .loaded copy

section Run

variable {V : Type*} {f : Bool → V → V} {v₀ : V} {tr : List (Shared V × Move)} {s s' : Shared V}
  {i j : Bool}

theorem overtakes_load : Overtakes (tr ++ [(s, .load i)]) j ↔ Overtakes tr j := by
  simp [Overtakes, or_and_right, exists_or]

theorem overtakes_store : Overtakes (tr ++ [(s, .store i)]) j ↔
    Overtakes tr j ∨ j = i ∧ ∃ copy, s.progress (!i) = .loaded copy := by
  simp only [Overtakes, List.mem_append, List.mem_singleton, or_and_right, exists_or]
  refine or_congr_right ?_
  constructor
  · intro h
    obtain ⟨p, rfl, hp, hcopy⟩ := h
    cases hp
    exact ⟨rfl, hcopy⟩
  · intro h
    obtain ⟨rfl, hcopy⟩ := h
    exact ⟨_, rfl, rfl, hcopy⟩

/-- Where a run of the two clients can be, with the clients that have overtaken. -/
inductive Stage (f : Bool → V → V) (v₀ : V) (s : Shared V) (o : Bool → Prop) : Prop where
  | fresh (hv : s.value = v₀) (hp : ∀ i, s.progress i = .waiting) (ho : ∀ j, ¬ o j)
  | one (i : Bool) (hv : s.value = v₀) (hi : s.progress i = .loaded v₀)
      (hj : s.progress (!i) = .waiting) (ho : ∀ j, ¬ o j)
  | both (hp : ∀ i, s.progress i = .loaded v₀) (ho : ∀ j, ¬ o j)
  | half (i : Bool) (hv : s.value = f i v₀) (hi : s.progress i = .stored)
      (hj : s.progress (!i) = .waiting) (ho : ∀ j, ¬ o j)
  | next (i : Bool) (hi : s.progress i = .stored) (hj : s.progress (!i) = .loaded (f i v₀))
      (ho : ∀ j, ¬ o j)
  | overtaken (i : Bool) (hi : s.progress i = .stored) (hj : s.progress (!i) = .loaded v₀)
      (ho : ∀ j, o j ↔ j = i)
  | sequential (i : Bool) (hv : s.value = f (!i) (f i v₀)) (hp : ∀ i, s.progress i = .stored)
      (ho : ∀ j, ¬ o j)
  | lost (i : Bool) (hv : s.value = f (!i) v₀) (hp : ∀ i, s.progress i = .stored)
      (ho : ∀ j, o j ↔ j = i)

theorem same_or_other (i k : Bool) : i = k ∨ i = !k := by
  by_cases h : i = k
  · exact Or.inl h
  · exact Or.inr (Bool.eq_not.mpr h)

/-- Both clients' progress after one of them has moved. -/
theorem progress_update {p : Bool → Progress V} {x y : Progress V} {k : Bool} (hk : p (!k) = y) :
    Function.update p k x k = x ∧ Function.update p k x (!k) = y := by
  refine ⟨Function.update_self .., ?_⟩
  rw [Function.update_of_ne (by simp), hk]

theorem forall_of_both {p : Bool → Progress V} {x : Progress V} {k : Bool} (h : p k = x)
    (h' : p (!k) = x) (i : Bool) : p i = x := by
  rcases same_or_other i k with rfl | rfl
  · exact h
  · exact h'

theorem Stage.load {o o' : Bool → Prop} {k : Bool} (h : Stage f v₀ s o)
    (ho' : ∀ j, o' j ↔ o j) (he : s.progress k = .waiting) :
    Stage f v₀ { s with progress := Function.update s.progress k (.loaded s.value) } o' := by
  have hnone : (∀ j, ¬ o j) → ∀ j, ¬ o' j := fun ho j hj => ho j ((ho' j).mp hj)
  cases h with
  | fresh hv hp ho =>
      obtain ⟨hi, hj⟩ := progress_update (x := .loaded s.value) (hp (!k))
      exact .one k hv (hv ▸ hi) hj (hnone ho)
  | one i hv hi hj ho =>
      rcases same_or_other k i with rfl | rfl
      · rw [hi] at he
        cases he
      · obtain ⟨hk, hk'⟩ := progress_update (k := !i) (x := .loaded s.value)
          ((Bool.not_not i).symm ▸ hi)
        exact .both (forall_of_both (hv ▸ hk) hk') (hnone ho)
  | both hp ho =>
      rw [hp k] at he
      cases he
  | half i hv hi hj ho =>
      rcases same_or_other k i with rfl | rfl
      · rw [hi] at he
        cases he
      · obtain ⟨hk, hk'⟩ := progress_update (k := !i) (x := .loaded s.value)
          ((Bool.not_not i).symm ▸ hi)
        rw [Bool.not_not] at hk'
        exact .next i hk' (hv ▸ hk) (hnone ho)
  | next i hi hj ho | overtaken i hi hj ho =>
      rcases same_or_other k i with rfl | rfl
      · rw [hi] at he
        cases he
      · rw [hj] at he
        cases he
  | sequential i hv hp ho | lost i hv hp ho =>
      rw [hp k] at he
      cases he

theorem Stage.store {o o' : Bool → Prop} {k : Bool} {copy : V} (h : Stage f v₀ s o)
    (ho' : ∀ j, o' j ↔ o j ∨ j = k ∧ ∃ copy, s.progress (!k) = .loaded copy)
    (he : s.progress k = .loaded copy) :
    Stage f v₀ ⟨f k copy, Function.update s.progress k .stored⟩ o' := by
  have hsame : (∀ c, s.progress (!k) ≠ .loaded c) → ∀ j, o' j ↔ o j := by
    intro hother j
    rw [ho' j, or_iff_left_iff_imp]
    intro hj
    exact absurd hj.2.choose_spec (hother _)
  have hnone : (∀ c, s.progress (!k) ≠ .loaded c) → (∀ j, ¬ o j) → ∀ j, ¬ o' j :=
    fun hother ho j hj => ho j ((hsame hother j).mp hj)
  cases h with
  | fresh hv hp ho =>
      rw [hp k] at he
      cases he
  | one i hv hi hj ho =>
      rcases same_or_other k i with rfl | rfl
      · rw [hi] at he
        cases he
        obtain ⟨hk, hk'⟩ := progress_update (x := .stored) hj
        exact .half k rfl hk hk' (hnone (by simp [hj]) ho)
      · rw [hj] at he
        cases he
  | both hp ho =>
      have hk := hp k
      rw [he] at hk
      cases hk
      obtain ⟨hk, hk'⟩ := progress_update (x := .stored) (hp (!k))
      refine .overtaken k hk hk' fun j => ?_
      rw [ho' j, or_iff_right (ho j), and_iff_left ⟨_, hp (!k)⟩]
  | half i hv hi hj ho =>
      rcases same_or_other k i with rfl | rfl
      · rw [hi] at he
        cases he
      · rw [hj] at he
        cases he
  | next i hi hj ho =>
      rcases same_or_other k i with rfl | rfl
      · rw [hi] at he
        cases he
      · rw [hj] at he
        cases he
        rw [← Bool.not_not i] at hi
        obtain ⟨hk, hk'⟩ := progress_update (x := .stored) hi
        have hother : ∀ c, s.progress (!!i) ≠ .loaded c := by
          rw [hi]
          simp
        exact .sequential i rfl (forall_of_both hk hk') (hnone hother ho)
  | overtaken i hi hj ho =>
      rcases same_or_other k i with rfl | rfl
      · rw [hi] at he
        cases he
      · rw [hj] at he
        cases he
        rw [← Bool.not_not i] at hi
        obtain ⟨hk, hk'⟩ := progress_update (x := .stored) hi
        have hother : ∀ c, s.progress (!!i) ≠ .loaded c := by
          rw [hi]
          simp
        refine .lost i rfl (forall_of_both hk hk') fun j => ?_
        rw [hsame hother j, ho j]
  | sequential i hv hp ho | lost i hv hp ho =>
      rw [hp k] at he
      cases he

/-- Every run is at one of the stages. -/
theorem stage_of_run (hrun : (rmw f).Run (.begin v₀) tr s) : Stage f v₀ s (Overtakes tr) := by
  induction hrun with
  | start => exact .fresh rfl (fun _ => rfl) fun j hj => by simp [Overtakes] at hj
  | @step tr s s' a h he hs ih =>
      cases a with
      | load k =>
          cases hs
          exact ih.load (fun j => overtakes_load) he
      | store k =>
          obtain ⟨copy, hcopy⟩ := he
          have hs : s.step f (.store k) = .ok s' := hs
          rw [Shared.step_store hcopy] at hs
          cases hs
          exact ih.store (fun j => overtakes_store) hcopy

/-- When both have stored, either nobody has overtaken and one change was made after the other, or
    one has, and what is stored is what the other made of the old value. -/
theorem rmw_final (hrun : (rmw f).Run (.begin v₀) tr s) (hdone : ∀ i, s.progress i = .stored) :
    ∃ i, ((∀ j, ¬ Overtakes tr j) ∧ s.value = f (!i) (f i v₀)) ∨
      ((∀ j, Overtakes tr j ↔ j = i) ∧ s.value = f (!i) v₀) := by
  cases stage_of_run hrun with
  | fresh hv hp ho | both hp ho =>
      have hstored := hdone true
      rw [hp true] at hstored
      cases hstored
  | one i hv hi hj ho | half i hv hi hj ho | next i hi hj ho | overtaken i hi hj ho =>
      have hstored := hdone (!i)
      rw [hj] at hstored
      cases hstored
  | sequential i hv hp ho => exact ⟨i, Or.inl ⟨ho, hv⟩⟩
  | lost i hv hp ho => exact ⟨i, Or.inr ⟨ho, hv⟩⟩

end Run

end Lib
