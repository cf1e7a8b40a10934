import Mathlib

/-
  File:      Domoio/Lib/NodeMap.lean
  Subject:   Ordered maps under iteration: nodes, iterators and their invalidation.

  A map is the list of its nodes in the order of their keys; an iterator names a node or the end.
  Erasing a node invalidates the iterators to it and no others: whoever follows, advances or erases
  such an iterator goes wrong (`IteratorFault`).

  `forLoop` is `for (it = begin; it != end; ++it)`. A body that leaves the map alone is run on every
  node once, in order (`forLoop_keeping_iff`); a body that erases the node it is at goes wrong at the
  first advance (`forLoop_erasing_cons`).
-/

namespace Lib

/-- A node: its identity, its key and its value. -/
structure Node (α β : Type) where
  addr : Nat
  key : α
  value : β

/-- A map, as its nodes in order. -/
structure NodeMap (α β : Type) where
  nodes : List (Node α β)
  nodup : (nodes.map Node.addr).Nodup

/-- An iterator: at a node, or at the end. -/
inductive Iterator where
  | node (addr : Nat)
  | finish
  deriving DecidableEq

/-- What goes wrong: an iterator to an element that has been erased is used, or one at the end. Out of
    fuel is no fault. -/
inductive IteratorFault where
  | erased
  | pastEnd
  | outOfFuel
  deriving DecidableEq

namespace NodeMap

variable {α β σ : Type}

/-- The entries of an ordered map, each in a node of its own. -/
def ofEntries (entries : List (α × β)) : NodeMap α β where
  nodes := entries.zipIdx.map fun q => ⟨q.2, q.1.1, q.1.2⟩
  nodup := by
    rw [List.map_map]
    have haddr : (Node.addr ∘ fun q : (α × β) × Nat => (⟨q.2, q.1.1, q.1.2⟩ : Node α β)) = Prod.snd :=
      rfl
    rw [haddr, List.zipIdx_map_snd]
    exact List.nodup_range'

@[simp] theorem length_ofEntries (entries : List (α × β)) :
    (ofEntries entries).nodes.length = entries.length := by
  simp [ofEntries]

/-- The nodes hold the entries, in order. -/
theorem map_entry_ofEntries (entries : List (α × β)) :
    (ofEntries entries).nodes.map (fun n => (n.key, n.value)) = entries := by
  rw [ofEntries, List.map_map]
  have hentry : ((fun n : Node α β => (n.key, n.value)) ∘
      fun q : (α × β) × Nat => (⟨q.2, q.1.1, q.1.2⟩ : Node α β)) = Prod.fst := rfl
  rw [hentry, List.zipIdx_map_fst]

theorem map_value_ofEntries (entries : List (α × β)) :
    (ofEntries entries).nodes.map Node.value = entries.map Prod.snd := by
  calc (ofEntries entries).nodes.map Node.value
      = ((ofEntries entries).nodes.map fun n => (n.key, n.value)).map Prod.snd := by
        rw [List.map_map]
        rfl
    _ = entries.map Prod.snd := by rw [map_entry_ofEntries]

/-! ## 1. Operations -/

/-- `begin()`. -/
def start (m : NodeMap α β) : Iterator :=
  match m.nodes with
  | [] => .finish
  | n :: _ => .node n.addr

/-- The nodes from the iterator on; none where it is invalid. -/
def rest (m : NodeMap α β) : Iterator → List (Node α β)
  | .node a => m.nodes.dropWhile fun n => n.addr ≠ a
  | .finish => []

/-- How a use of an invalid iterator goes wrong. -/
def Iterator.fault : Iterator → IteratorFault
  | .node _ => .erased
  | .finish => .pastEnd

/-- `*it`. -/
def deref (m : NodeMap α β) (it : Iterator) : Except IteratorFault (Node α β) :=
  match m.rest it with
  | [] => .error (Iterator.fault it)
  | n :: _ => .ok n

/-- `++it`. -/
def next (m : NodeMap α β) (it : Iterator) : Except IteratorFault Iterator :=
  match m.rest it with
  | [] => .error (Iterator.fault it)
  | [_] => .ok .finish
  | _ :: n :: _ => .ok (.node n.addr)

/-- The map without the node of this identity. -/
def without (m : NodeMap α β) (a : Nat) : NodeMap α β where
  nodes := m.nodes.filter fun n => n.addr ≠ a
  nodup := m.nodup.sublist (List.filter_sublist.map _)

/-- `erase(it)`. -/
def erase (m : NodeMap α β) (it : Iterator) : Except IteratorFault (NodeMap α β) :=
  match m.rest it with
  | [] => .error (Iterator.fault it)
  | n :: _ => .ok (m.without n.addr)

/-- `for (it = ...; it != end; ++it) body`, with what the body adds up. -/
def forLoop (body : NodeMap α β → Iterator → σ → Except IteratorFault (NodeMap α β × σ)) :
    Nat → NodeMap α β → Iterator → σ → Except IteratorFault (NodeMap α β × σ)
  | 0, _, _, _ => .error .outOfFuel
  | fuel + 1, m, it, s =>
      if it = .finish then .ok (m, s)
      else do
        let (m, s) ← body m it s
        let it ← m.next it
        forLoop body fuel m it s

variable {m : NodeMap α β}

/-! ## 2. Iterators -/

/-- The iterator at the front of these nodes. -/
def front : List (Node α β) → Iterator
  | [] => .finish
  | n :: _ => .node n.addr

theorem start_eq (m : NodeMap α β) : m.start = front m.nodes := by
  unfold start front
  cases m.nodes <;> rfl

theorem rest_front {done todo : List (Node α β)} (h : m.nodes = done ++ todo) :
    m.rest (front todo) = todo := by
  cases todo with
  | nil => rfl
  | cons n todo =>
      have hnodup := m.nodup
      rw [h, List.map_append, List.map_cons] at hnodup
      have hdone : ∀ n' ∈ done, n'.addr ≠ n.addr := by
        intro n' hn' heq
        have hmem : n.addr ∈ done.map Node.addr := heq ▸ List.mem_map_of_mem hn'
        exact (List.nodup_append.mp hnodup).2.2 _ hmem _ List.mem_cons_self rfl
      rw [front, rest, h, List.dropWhile_append_of_pos (by simpa using hdone)]
      simp

theorem deref_front {done todo : List (Node α β)} {n : Node α β} (h : m.nodes = done ++ n :: todo) :
    m.deref (.node n.addr) = .ok n := by
  have hrest : m.rest (.node n.addr) = n :: todo := rest_front h
  rw [deref, hrest]

theorem next_front {done todo : List (Node α β)} {n : Node α β} (h : m.nodes = done ++ n :: todo) :
    m.next (.node n.addr) = .ok (front todo) := by
  have hrest : m.rest (.node n.addr) = n :: todo := rest_front h
  rw [next, hrest]
  cases todo <;> rfl

/-- An iterator to an erased node is invalid, the others are not touched. -/
theorem rest_without (m : NodeMap α β) (a : Nat) : (m.without a).rest (.node a) = [] := by
  rw [rest, List.dropWhile_eq_nil_iff]
  intro n hn
  simpa using (List.mem_filter.mp hn).2

theorem next_without (m : NodeMap α β) (a : Nat) :
    (m.without a).next (.node a) = .error .erased := by
  rw [next, rest_without]
  rfl

/-! ## 3. Loops -/

/-- A body that leaves the map alone. -/
def keeping (f : σ → Node α β → Except IteratorFault σ) (m : NodeMap α β) (it : Iterator) (s : σ) :
    Except IteratorFault (NodeMap α β × σ) := do
  let n ← m.deref it
  let s ← f s n
  return (m, s)

/-- A body that erases the node it is at. -/
def erasing (f : σ → Node α β → Except IteratorFault σ) (m : NodeMap α β) (it : Iterator) (s : σ) :
    Except IteratorFault (NodeMap α β × σ) := do
  let n ← m.deref it
  let s ← f s n
  let m ← m.erase it
  return (m, s)

theorem keeping_front (f : σ → Node α β → Except IteratorFault σ) {done todo : List (Node α β)}
    {n : Node α β} (h : m.nodes = done ++ n :: todo) (s : σ) :
    keeping f m (.node n.addr) s = (f s n).map fun s => (m, s) := by
  rw [keeping, deref_front h]
  show (f s n).bind (fun s => .ok (m, s)) = _
  cases f s n <;> rfl

theorem erasing_front (f : σ → Node α β → Except IteratorFault σ) {done todo : List (Node α β)}
    {n : Node α β} (h : m.nodes = done ++ n :: todo) (s : σ) :
    erasing f m (.node n.addr) s = (f s n).map fun s => (m.without n.addr, s) := by
  have hrest : m.rest (.node n.addr) = n :: todo := rest_front h
  rw [erasing, deref_front h, erase, hrest]
  show (f s n).bind (fun s => .ok (m.without n.addr, s)) = _
  cases f s n <;> rfl

/-- One round. -/
theorem forLoop_node (body : NodeMap α β → Iterator → σ → Except IteratorFault (NodeMap α β × σ))
    (fuel : Nat) (m : NodeMap α β) (a : Nat) (s : σ) : forLoop body (fuel + 1) m (.node a) s =
      (body m (.node a) s).bind fun r => (r.1.next (.node a)).bind fun it => forLoop body fuel r.1 it r.2 := by
  rw [forLoop, if_neg (by simp)]
  rfl

theorem forLoop_finish (body : NodeMap α β → Iterator → σ → Except IteratorFault (NodeMap α β × σ))
    (fuel : Nat) (m : NodeMap α β) (s : σ) : forLoop body (fuel + 1) m .finish s = .ok (m, s) := by
  rw [forLoop, if_pos rfl]

theorem forLoop_keeping_from (f : σ → Node α β → Except IteratorFault σ) {fuel : Nat} {s : σ}
    {done todo : List (Node α β)} (h : m.nodes = done ++ todo) {r : NodeMap α β × σ} :
    forLoop (keeping f) fuel m (front todo) s = .ok r ↔
      todo.length < fuel ∧ r.1 = m ∧ todo.foldlM f s = .ok r.2 := by
  induction todo generalizing fuel done s with
  | nil =>
      cases fuel with
      | zero => simp [forLoop]
      | succ fuel =>
          rw [front, forLoop_finish]
          constructor
          · intro hr
            cases hr
            exact ⟨Nat.succ_pos fuel, rfl, rfl⟩
          · obtain ⟨m', s'⟩ := r
            rintro ⟨-, rfl, hs⟩
            cases hs
            rfl
  | cons n todo ih =>
      cases fuel with
      | zero => simp [forLoop]
      | succ fuel =>
          have hnext : m.nodes = (done ++ [n]) ++ todo := by simp [h]
          rw [front, forLoop_node, keeping_front f h, List.foldlM_cons]
          cases f s n with
          | error e => exact iff_of_false (fun hr => by cases hr) fun hr => by cases hr.2.2
          | ok s' =>
              rw [List.length_cons, Nat.succ_lt_succ_iff]
              show (m.next (.node n.addr)).bind (fun it => forLoop (keeping f) fuel m it s') = .ok r ↔ _
              rw [next_front h]
              exact ih hnext

/-- A loop that leaves the map alone runs its body on every node once, in order. -/
theorem forLoop_keeping_iff (f : σ → Node α β → Except IteratorFault σ) {fuel : Nat} {s : σ}
    {r : NodeMap α β × σ} : forLoop (keeping f) fuel m m.start s = .ok r ↔
      m.nodes.length < fuel ∧ r.1 = m ∧ m.nodes.foldlM f s = .ok r.2 := by
  rw [start_eq]
  exact forLoop_keeping_from f (List.nil_append _).symm

/-- A loop over no nodes. -/
theorem forLoop_empty (body : NodeMap α β → Iterator → σ → Except IteratorFault (NodeMap α β × σ))
    (hm : m.nodes = []) (fuel : Nat) (s : σ) :
    forLoop body (fuel + 1) m m.start s = .ok (m, s) := by
  rw [start_eq, hm, front, forLoop_finish]

/-- A loop that erases the node it is at goes wrong once it has done so: it advances the iterator to
    that node. -/
theorem forLoop_erasing_cons (f : σ → Node α β → Except IteratorFault σ) {s s' : σ}
    {n : Node α β} {todo : List (Node α β)} (hm : m.nodes = n :: todo) (hf : f s n = .ok s')
    (fuel : Nat) : forLoop (erasing f) (fuel + 1) m m.start s = .error .erased := by
  have hnodes : m.nodes = [] ++ n :: todo := hm
  rw [start_eq, hm, front, forLoop_node, erasing_front f hnodes, hf]
  show ((m.without n.addr).next (.node n.addr)).bind
    (fun it => forLoop (erasing f) fuel (m.without n.addr) it s') = .error .erased
  rw [next_without]
  rfl

end NodeMap

end Lib
