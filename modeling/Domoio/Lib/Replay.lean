import Mathlib.Logic.Function.Basic

/-
  File:      Domoio/Lib/Replay.lean
  Subject:   Logs of keyed changes: replaying a log, and logs whose entries chain.

  An entry changes the value under its key. A replay keeps the last value of every key
  (`replay_snoc`). A log chains when every entry names, as the value it replaces, the one the
  replay of the entries before it gives its key (`chained_snoc`).
-/

namespace Lib

variable {ε κ β : Type*} [DecidableEq κ]

/-- The values a log leaves behind, each under its key. -/
def replay (key : ε → κ) (value : ε → β) (log : List ε) : κ → Option β :=
  log.foldl (fun values e => Function.update values (key e) (some (value e))) fun _ => none

/-- Every entry replaces the value of the entry before it with the same key. -/
def Chained (key : ε → κ) (old value : ε → β) (log : List ε) : Prop :=
  ∀ before e after, log = before ++ e :: after →
    ∀ v, replay key value before (key e) = some v → old e = v

variable {key : ε → κ} {old value : ε → β} {log : List ε} {e : ε} {k : κ}

@[simp] theorem replay_nil : replay key value [] k = none := rfl

theorem replay_snoc : replay key value (log ++ [e]) k =
    if k = key e then some (value e) else replay key value log k := by
  rw [replay, List.foldl_append]
  show Function.update (replay key value log) (key e) (some (value e)) k = _
  rw [Function.update_apply]

@[simp] theorem chained_nil : Chained key old value [] := by
  intro before e after h
  simp at h

theorem chained_snoc : Chained key old value (log ++ [e]) ↔
    Chained key old value log ∧ ∀ v, replay key value log (key e) = some v → old e = v := by
  constructor
  · intro h
    refine ⟨?_, h log e [] rfl⟩
    intro before e' after hlog
    exact h before e' (after ++ [e]) (by rw [hlog, List.append_assoc, List.cons_append])
  · intro h before e' after hlog
    rcases List.eq_nil_or_concat after with hnil | ⟨after', last, hafter⟩
    · -- the entry is the last one
      rw [hnil] at hlog
      obtain ⟨hbefore, he⟩ := List.append_inj' hlog rfl
      cases he
      rw [← hbefore]
      exact h.2
    · rw [hafter, List.concat_eq_append, ← List.cons_append, ← List.append_assoc] at hlog
      obtain ⟨hinit, -⟩ := List.append_inj' hlog rfl
      exact h.1 before e' after' hinit

end Lib
