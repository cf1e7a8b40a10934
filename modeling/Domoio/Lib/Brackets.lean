import Mathlib.Data.List.Basic

/-
  File:      Domoio/Lib/Brackets.lean
  Subject:   Sequences of labelled start and finish marks.

  `Alternates` says that starts and finishes take turns, the first mark being a start; `Balanced`
  says that the sequence is made of pairs, a start and the finish of the same label behind it.
-/

namespace Lib

/-- A mark with its label. -/
inductive Mark (δ : Type*) where
  | start (d : δ)
  | finish (d : δ)
  deriving DecidableEq

namespace Mark

variable {δ : Type*}

/-- Whether a start is open after the marks, when `open?` says so before them. -/
def inside : Bool → List (Mark δ) → Bool
  | b, [] => b
  | _, .start _ :: l => inside true l
  | _, .finish _ :: l => inside false l

/-- Starts and finishes take turns; `b` says whether a start is open before the marks. -/
def AlternatesFrom : Bool → List (Mark δ) → Prop
  | _, [] => True
  | b, .start _ :: l => b = false ∧ AlternatesFrom true l
  | b, .finish _ :: l => b = true ∧ AlternatesFrom false l

/-- Starts and finishes take turns, beginning with a start. -/
def Alternates (l : List (Mark δ)) : Prop := AlternatesFrom false l

/-- Pairs of a start and its finish. -/
inductive Balanced : List (Mark δ) → Prop where
  | nil : Balanced []
  | pair {l : List (Mark δ)} (h : Balanced l) (d : δ) : Balanced (l ++ [.start d, .finish d])

theorem inside_append (b : Bool) (l l' : List (Mark δ)) :
    inside b (l ++ l') = inside (inside b l) l' := by
  induction l generalizing b with
  | nil => rfl
  | cons m l ih =>
      cases m with
      | start d => exact ih true
      | finish d => exact ih false

theorem alternatesFrom_append (b : Bool) (l l' : List (Mark δ)) :
    AlternatesFrom b (l ++ l') ↔ AlternatesFrom b l ∧ AlternatesFrom (inside b l) l' := by
  induction l generalizing b with
  | nil => simp [AlternatesFrom, inside]
  | cons m l ih =>
      cases m with
      | start d => simp [AlternatesFrom, inside, ih, and_assoc]
      | finish d => simp [AlternatesFrom, inside, ih, and_assoc]

/-- Two starts in a row do not alternate. -/
theorem not_alternates_start_start (l : List (Mark δ)) (d d' : δ) :
    ¬ Alternates (l ++ [.start d] ++ [.start d']) := by
  intro h
  have h2 := (alternatesFrom_append _ _ _).mp h
  rw [inside_append] at h2
  have hfalse : true = false := h2.2.1
  cases hfalse

namespace Balanced

variable {l : List (Mark δ)} {d d' : δ}

theorem inside_false (h : Balanced l) : inside false l = false := by
  cases h with
  | nil => rfl
  | pair h d => rw [inside_append]; rfl

theorem alternates (h : Balanced l) : Alternates l := by
  induction h with
  | nil => trivial
  | pair h d ih =>
      refine (alternatesFrom_append _ _ _).mpr ⟨ih, ?_⟩
      rw [h.inside_false]
      exact ⟨rfl, rfl, trivial⟩

theorem alternates_start (h : Balanced l) (d : δ) : Alternates (l ++ [.start d]) := by
  refine (alternatesFrom_append _ _ _).mpr ⟨h.alternates, ?_⟩
  rw [h.inside_false]
  exact ⟨rfl, trivial⟩

/-- An open start is not balanced. -/
theorem not_start : ¬ Balanced (l ++ [.start d]) := by
  intro h
  have hin := h.inside_false
  rw [inside_append] at hin
  cases hin

/-- The finish behind an open start is that of its label. -/
theorem finish_label (h : Balanced (l ++ [.start d] ++ [.finish d'])) : d = d' := by
  generalize hm : l ++ [Mark.start d] ++ [Mark.finish d'] = m at h
  cases h with
  | nil => simp at hm
  | @pair l₂ h e =>
      have hm' : (l ++ [Mark.start d]) ++ [Mark.finish d'] =
          (l₂ ++ [Mark.start e]) ++ [Mark.finish e] := by simpa using hm
      obtain ⟨h1, h2⟩ := List.append_inj' hm' rfl
      obtain ⟨-, h3⟩ := List.append_inj' h1 rfl
      have hd' : d' = e := by simpa using h2
      have hd : d = e := by simpa using h3
      rw [hd, hd']

end Balanced

end Mark

end Lib
