import Mathlib.Data.List.Basic

/-
  File:      Domoio/Lib/Unwinding.lean
  Subject:   What an observer of a server can tell of its state.

  A server answers requests one after the other; the observer sees the answers. A relation that
  every request keeps, and under which it is answered alike, is kept by every sequence of requests
  (`Unwinding.run`): the observer cannot tell related states apart.
-/

namespace Lib

variable {σ α ο : Type*}

/-- The state after a list of requests, and the answers to them. -/
def serveAll (serve : σ → α → σ × ο) : σ → List α → σ × List ο
  | s, [] => (s, [])
  | s, a :: l =>
      let (s', answer) := serve s a
      let (last, answers) := serveAll serve s' l
      (last, answer :: answers)

structure Unwinding (serve : σ → α → σ × ο) (R : σ → σ → Prop) : Prop where
  answer : ∀ {s s'} (a), R s s' → (serve s a).2 = (serve s' a).2
  state : ∀ {s s'} (a), R s s' → R (serve s a).1 (serve s' a).1

variable {serve : σ → α → σ × ο} {R : σ → σ → Prop} {s s' : σ}

theorem Unwinding.run (h : Unwinding serve R) (hR : R s s') (l : List α) :
    (serveAll serve s l).2 = (serveAll serve s' l).2 ∧
      R (serveAll serve s l).1 (serveAll serve s' l).1 := by
  induction l generalizing s s' with
  | nil => exact ⟨rfl, hR⟩
  | cons a l ih =>
      obtain ⟨hanswers, hlast⟩ := ih (h.state a hR)
      refine ⟨?_, hlast⟩
      simp only [serveAll, hanswers, h.answer a hR]

/-- What every request keeps, a list of requests keeps. -/
theorem serveAll_invariant {P : σ → Prop} (hstep : ∀ s a, P s → P (serve s a).1) (h : P s)
    (l : List α) : P (serveAll serve s l).1 := by
  induction l generalizing s with
  | nil => exact h
  | cons a l ih => exact ih (hstep s a h)

end Lib
