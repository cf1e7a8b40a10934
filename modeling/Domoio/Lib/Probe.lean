import Mathlib

/-
  File:      Domoio/Lib/Probe.lean
  Subject:   Computations over arrays, with the log of what they touch.

  A `Probe` stops where it touches an element that its array does not have. So it has a result exactly
  when every access of its log is inside (`Exact`): `exact_bind` and the rules beside it carry that
  from the single access to whole programs, and leave nothing to show about indices but where each
  array begins and ends.

  Scans run on cursors, the elements from an index on; `scan` is `while (step(*p)) ++p`.
-/

namespace Lib

/-- An access: the array and the index in it. -/
structure Access (ι : Type) where
  array : ι
  index : Nat
  deriving DecidableEq

/-- What a computation over arrays comes to, and what it touches on the way, in order. -/
structure Probe (ι α : Type) where
  result : Option α
  log : List (Access ι)

namespace Probe

variable {ι α β σ : Type}

instance : Monad (Probe ι) where
  pure a := ⟨some a, []⟩
  bind p f :=
    match p.result with
    | none => ⟨none, p.log⟩
    | some a => ⟨(f a).result, p.log ++ (f a).log⟩

/-- Every access is inside an array of its size. -/
def Inside (size : ι → Nat) (p : Probe ι α) : Prop := ∀ a ∈ p.log, a.index < size a.array

/-- There is a result exactly when every access is inside. -/
def Exact (size : ι → Nat) (p : Probe ι α) : Prop := p.result.isSome ↔ p.Inside size

@[simp] theorem result_pure (a : α) : (pure a : Probe ι α).result = some a := rfl

@[simp] theorem log_pure (a : α) : (pure a : Probe ι α).log = [] := rfl

theorem result_bind (p : Probe ι α) (f : α → Probe ι β) :
    (p >>= f).result = p.result >>= fun a => (f a).result := by
  obtain ⟨_ | a, log⟩ := p <;> rfl

theorem bind_some (a : α) (log : List (Access ι)) (f : α → Probe ι β) :
    ((⟨some a, log⟩ : Probe ι α) >>= f) = ⟨(f a).result, log ++ (f a).log⟩ := rfl

theorem result_map (f : α → β) (p : Probe ι α) : (f <$> p).result = p.result.map f := by
  obtain ⟨_ | a, log⟩ := p <;> rfl

theorem bind_eq_some {p : Probe ι α} {f : α → Probe ι β} {b : β} :
    (p >>= f).result = some b ↔ ∃ a, p.result = some a ∧ (f a).result = some b := by
  rw [result_bind]
  exact Option.bind_eq_some_iff

theorem log_bind_some {p : Probe ι α} {a : α} (h : p.result = some a) (f : α → Probe ι β) :
    (p >>= f).log = p.log ++ (f a).log := by
  obtain ⟨result, log⟩ := p
  cases h
  rfl

theorem log_bind_none {p : Probe ι α} (h : p.result = none) (f : α → Probe ι β) :
    (p >>= f).log = p.log := by
  obtain ⟨result, log⟩ := p
  cases h
  rfl

variable {size : ι → Nat}

theorem exact_pure (a : α) : Exact size (pure a : Probe ι α) := iff_of_true rfl nofun

/-- One step after the other, where the second is exact for every result of the first. -/
theorem exact_bind {p : Probe ι α} {f : α → Probe ι β} (hp : Exact size p)
    (hf : ∀ a, p.result = some a → Exact size (f a)) : Exact size (p >>= f) := by
  unfold Exact Inside
  cases hr : p.result with
  | none =>
      rw [result_bind, hr, log_bind_none hr]
      have hnot : ¬ p.Inside size := fun h => by simpa [hr] using hp.mpr h
      exact iff_of_false (by simp) hnot
  | some a =>
      have hin : p.Inside size := hp.mp (by rw [hr]; rfl)
      rw [result_bind, hr, log_bind_some hr]
      constructor
      · intro h x hx
        rcases List.mem_append.mp hx with hx | hx
        · exact hin x hx
        · exact (hf a hr).mp h x hx
      · intro h
        exact (hf a hr).mpr fun x hx => h x (List.mem_append_right _ hx)

theorem exact_map {p : Probe ι α} (hp : Exact size p) (f : α → β) : Exact size (f <$> p) :=
  exact_bind hp fun a _ => exact_pure (f a)

/-- Where there is a result every access is inside. -/
def Safe (size : ι → Nat) (p : Probe ι α) : Prop := p.result.isSome → p.Inside size

theorem Exact.safe {p : Probe ι α} (h : Exact size p) : Safe size p := h.mp

theorem safe_pure (a : α) : Safe size (pure a : Probe ι α) := fun _ => nofun

theorem safe_bind {p : Probe ι α} {f : α → Probe ι β} (hp : Safe size p)
    (hf : ∀ a, p.result = some a → Safe size (f a)) : Safe size (p >>= f) := by
  intro h x hx
  rw [result_bind] at h
  cases hr : p.result with
  | none =>
      rw [hr] at h
      cases h
  | some a =>
      rw [hr] at h
      rw [log_bind_some hr, List.mem_append] at hx
      rcases hx with hx | hx
      · exact hp (by rw [hr]; rfl) x hx
      · exact hf a hr h x hx

/-- A computation that cannot go on, for another reason than an access. -/
def stop : Probe ι α := ⟨none, []⟩

theorem safe_stop : Safe size (stop : Probe ι α) := nofun

/-! ## 1. Single elements -/

/-- `mem[i]`. -/
def look (a : ι) (mem : List β) (i : Nat) : Probe ι β := ⟨mem[i]?, [⟨a, i⟩]⟩

/-- `mem[i] = b`. -/
def store (a : ι) (mem : List β) (i : Nat) (b : β) : Probe ι (List β) :=
  ⟨if i < mem.length then some (mem.set i b) else none, [⟨a, i⟩]⟩

theorem exact_look {a : ι} {mem : List β} (h : mem.length = size a) (i : Nat) :
    Exact size (look a mem i) := by
  simp [Exact, Inside, look, h]

theorem exact_store {a : ι} {mem : List β} (h : mem.length = size a) (i : Nat) (b : β) :
    Exact size (store a mem i b) := by
  by_cases hi : i < size a
  · simp [Exact, Inside, store, h, hi]
  · simp [Exact, Inside, store, h, hi]

theorem length_of_store {a : ι} {mem mem' : List β} {i : Nat} {b : β}
    (h : (store a mem i b).result = some mem') : mem'.length = mem.length := by
  simp only [store] at h
  split at h
  · cases h
    exact List.length_set
  · cases h

/-- The element behind a prefix is overwritten. -/
theorem result_store_append (a : ι) (done : List β) (c : β) (rest : List β) (b : β) :
    (store a (done ++ c :: rest) done.length b).result = some (done ++ b :: rest) := by
  simp [store]

/-- Elements one after the other, from index `i` on. -/
def storeAll (a : ι) : Nat → List β → List β → Probe ι (List β)
  | _, [], mem => pure mem
  | i, b :: bs, mem => do
      let mem ← store a mem i b
      storeAll a (i + 1) bs mem

theorem exact_storeAll {a : ι} (i : Nat) (bs : List β) {mem : List β} (h : mem.length = size a) :
    Exact size (storeAll a i bs mem) := by
  induction bs generalizing i mem with
  | nil => exact exact_pure mem
  | cons b bs ih =>
      refine exact_bind (exact_store h i b) fun mem' hmem' => ?_
      exact ih (i + 1) ((length_of_store hmem').trans h)

theorem length_of_storeAll {a : ι} {i : Nat} {bs mem mem' : List β}
    (h : (storeAll a i bs mem).result = some mem') : mem'.length = mem.length := by
  induction bs generalizing i mem with
  | nil =>
      cases h
      rfl
  | cons b bs ih =>
      rw [storeAll, result_bind] at h
      obtain ⟨next, hnext, hrest⟩ := Option.bind_eq_some_iff.mp h
      exact (ih hrest).trans (length_of_store hnext)

theorem result_storeAll_append (a : ι) (done bs old rest : List β) (h : old.length = bs.length) :
    (storeAll a done.length bs (done ++ old ++ rest)).result = some (done ++ bs ++ rest) := by
  induction bs generalizing done old with
  | nil =>
      cases List.length_eq_zero_iff.mp h
      rfl
  | cons b bs ih =>
      obtain ⟨c, old, rfl⟩ := List.exists_cons_of_length_eq_add_one h
      have hstore := result_store_append a done c (old ++ rest) b
      have hrest := ih (done ++ [b]) old (Nat.succ.inj h)
      rw [List.length_append, List.length_singleton] at hrest
      rw [List.append_assoc, List.cons_append, storeAll, result_bind, hstore]
      simpa using hrest

/-- `n` elements from index `i` on. -/
def lookAll (a : ι) (mem : List β) : Nat → Nat → Probe ι (List β)
  | 0, _ => pure []
  | n + 1, i => do
      let b ← look a mem i
      let rest ← lookAll a mem n (i + 1)
      return b :: rest

theorem exact_lookAll {a : ι} {mem : List β} (h : mem.length = size a) (n i : Nat) :
    Exact size (lookAll a mem n i) := by
  induction n generalizing i with
  | zero => exact exact_pure []
  | succ n ih =>
      exact exact_bind (exact_look h i) fun b _ =>
        exact_bind (ih (i + 1)) fun rest _ => exact_pure (b :: rest)

theorem result_lookAll_append (a : ι) (done mid rest : List β) :
    (lookAll a (done ++ mid ++ rest) mid.length done.length).result = some mid := by
  induction mid generalizing done with
  | nil => rfl
  | cons b mid ih =>
      have hlook : (look a (done ++ b :: mid ++ rest) done.length).result = some b := by
        simp [look]
      have hrest := ih (done ++ [b])
      rw [List.append_assoc done, List.singleton_append, List.length_append, List.length_singleton] at hrest
      rw [List.length_cons, lookAll, result_bind, hlook]
      show (lookAll a (done ++ b :: mid ++ rest) mid.length (done.length + 1) >>= _).result = _
      rw [result_bind, hrest]
      rfl

/-- An element of memory that goes on behind its array. -/
def touch (a : ι) (mem : Nat → β) (i : Nat) : Probe ι β := ⟨some (mem i), [⟨a, i⟩]⟩

def touchAll (a : ι) (mem : Nat → β) : Nat → Nat → Probe ι (List β)
  | 0, _ => pure []
  | n + 1, i => do
      let b ← touch a mem i
      let rest ← touchAll a mem n (i + 1)
      return b :: rest

theorem touchAll_eq (a : ι) (mem : Nat → β) (n i : Nat) : touchAll a mem n i =
    ⟨some ((List.range' i n).map mem), (List.range' i n).map fun j => ⟨a, j⟩⟩ := by
  induction n generalizing i with
  | zero => rfl
  | succ n ih =>
      rw [touchAll, ih, List.range'_succ]
      show Probe.mk _ (_ ++ (_ ++ [])) = _
      rw [List.append_nil]
      rfl

/-! ## 2. Cursors -/

/-- A position: its index, and the elements from there on. -/
structure Cursor (β : Type) where
  index : Nat
  rest : List β

namespace Cursor

/-- The elements go up to the end of an array of `n`. -/
def Ends (c : Cursor β) (n : Nat) : Prop := c.index + c.rest.length = n

def advance (c : Cursor β) : Cursor β := ⟨c.index + 1, c.rest.tail⟩

def ofIndex (mem : List β) (i : Nat) : Cursor β := ⟨i, mem.drop i⟩

theorem ends_ofIndex {mem : List β} {i : Nat} (h : i ≤ mem.length) : (ofIndex mem i).Ends mem.length := by
  show i + (mem.drop i).length = mem.length
  rw [List.length_drop, Nat.add_sub_cancel' h]

theorem Ends.advance {c : Cursor β} {n : Nat} (h : c.Ends n) (hc : c.rest ≠ []) : c.advance.Ends n := by
  obtain ⟨b, rest, hrest⟩ := List.exists_cons_of_ne_nil hc
  rw [Ends, hrest, List.length_cons, Nat.add_comm rest.length, ← Nat.add_assoc] at h
  rw [Ends, Cursor.advance, hrest]
  exact h

end Cursor

/-- `*p`. -/
def peek (a : ι) (c : Cursor β) : Probe ι β := ⟨c.rest.head?, [⟨a, c.index⟩]⟩

theorem exact_peek {a : ι} {c : Cursor β} (h : c.Ends (size a)) : Exact size (peek a c) := by
  obtain ⟨i, rest⟩ := c
  have hlen : i + rest.length = size a := h
  cases rest with
  | nil =>
      have hi : ¬ i < size a := by
        rw [← hlen]
        simp
      simpa [Exact, Inside, peek] using hi
  | cons b rest =>
      have hi : i < size a := by
        rw [← hlen]
        simp
      simpa [Exact, Inside, peek] using hi

theorem ne_nil_of_peek {a : ι} {c : Cursor β} {b : β} (h : (peek a c).result = some b) : c.rest ≠ [] := by
  intro hnil
  rw [peek, hnil] at h
  cases h

/-- `while (step(*p)) ++p`, from index `i` on. -/
def scan (a : ι) (step : σ → β → Option σ) : σ → Nat → List β → Probe ι (σ × Cursor β)
  | s, i, [] => do
      let _ ← peek a (⟨i, []⟩ : Cursor β)
      return (s, ⟨i, []⟩)
  | s, i, b :: rest => do
      let b ← peek a ⟨i, b :: rest⟩
      match step s b with
      | some s => scan a step s (i + 1) rest
      | none => return (s, ⟨i, b :: rest⟩)

/-- What a scan comes to, without the indices: nothing where it runs off the end. -/
def scanned (step : σ → β → Option σ) : σ → List β → Option (σ × List β)
  | _, [] => none
  | s, b :: rest =>
      match step s b with
      | some s => scanned step s rest
      | none => some (s, b :: rest)

theorem exact_scan {a : ι} (step : σ → β → Option σ) {s : σ} {i : Nat} {rest : List β}
    (h : i + rest.length = size a) : Exact size (scan a step s i rest) := by
  induction rest generalizing s i with
  | nil => exact exact_bind (exact_peek h) fun b _ => exact_pure _
  | cons b rest ih =>
      refine exact_bind (exact_peek h) fun b' _ => ?_
      split
      · refine ih ?_
        rw [← h, List.length_cons]
        omega
      · exact exact_pure _

theorem result_scan (a : ι) (step : σ → β → Option σ) (s : σ) (i : Nat) (rest : List β) :
    (scan a step s i rest).result.map (fun r => (r.1, r.2.rest)) = scanned step s rest := by
  induction rest generalizing s i with
  | nil => rfl
  | cons b rest ih =>
      rw [scan, result_bind, scanned]
      show Option.map _ ((match step s b with
        | some s => scan a step s (i + 1) rest
        | none => pure (s, ⟨i, b :: rest⟩)).result) = _
      cases step s b with
      | none => rfl
      | some s' => exact ih s' (i + 1)

/-- A scan stays in its array. -/
theorem ends_of_scan {a : ι} {step : σ → β → Option σ} {s : σ} {i n : Nat} {rest : List β}
    {r : σ × Cursor β} (h : i + rest.length = n) (hr : (scan a step s i rest).result = some r) :
    r.2.Ends n := by
  induction rest generalizing s i with
  | nil => cases hr
  | cons b rest ih =>
      rw [scan, result_bind] at hr
      change ((match step s b with
        | some s => scan a step s (i + 1) rest
        | none => pure (s, ⟨i, b :: rest⟩)).result) = some r at hr
      cases hstep : step s b with
      | none =>
          rw [hstep] at hr
          cases hr
          exact h
      | some s' =>
          rw [hstep] at hr
          refine ih ?_ hr
          rw [← h, List.length_cons]
          omega

end Probe

end Lib
