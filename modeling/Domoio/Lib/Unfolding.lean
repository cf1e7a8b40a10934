import Mathlib

/-
  File:      Domoio/Lib/Unfolding.lean
  Subject:   The tree that a rooted graph unfolds to, and the depth-first walks through it.

  A node has numbered successors and a label. An address is the path of numbers from the root, with
  the last step first. A walk without a memory of where it has been goes through the addresses and not
  through the nodes, so it goes through a label once exactly where no two edges out of reached nodes
  lead to one label (`Once.injective`, `once_of_injective`). The tree is then no deeper than there are
  labels (`Once.length_lt`).

  `Lists` and `ListsBelow` say what a walk goes through: what it visits, each address once. The rules
  follow its steps.
-/

namespace Lib

/-- A graph with a root, its successors by their numbers, and its labels. -/
structure RootedGraph (ν φ : Type) where
  root : ν
  next : ν → Nat → Option ν
  label : ν → φ

namespace RootedGraph

variable {ν φ : Type} (g : RootedGraph ν φ) {a b : List Nat} {m n : ν} {i k : Nat}

/-! ## 1. Addresses -/

/-- The node at an address. -/
def nodeAt : List Nat → Option ν
  | [] => some g.root
  | i :: up => (nodeAt up).bind fun m => g.next m i

/-- The nodes that edges lead to from the root. -/
inductive Reached : ν → Prop
  | root : Reached g.root
  | next {m n : ν} {i : Nat} (hm : Reached m) (hnext : g.next m i = some n) : Reached n

variable {g}

theorem nodeAt_cons (hm : g.nodeAt a = some m) : g.nodeAt (i :: a) = g.next m i := by
  rw [nodeAt, hm, Option.bind_some]

theorem exists_of_nodeAt_cons (hn : g.nodeAt (i :: a) = some n) :
    ∃ m, g.nodeAt a = some m ∧ g.next m i = some n := by
  rw [nodeAt] at hn
  exact Option.bind_eq_some_iff.mp hn

theorem reached_iff : g.Reached n ↔ ∃ a, g.nodeAt a = some n := by
  constructor
  · intro hn
    induction hn with
    | root => exact ⟨[], rfl⟩
    | next hm hnext ih =>
        obtain ⟨a, ha⟩ := ih
        exact ⟨_ :: a, (nodeAt_cons ha).trans hnext⟩
  · rintro ⟨a, ha⟩
    induction a generalizing n with
    | nil =>
        cases ha
        exact .root
    | cons i up ih =>
        obtain ⟨m, hm, hnext⟩ := exists_of_nodeAt_cons ha
        exact .next (ih hm) hnext

/-- Whatever an address passes through has a node. -/
theorem nodeAt_of_suffix (hab : a <:+ b) (hb : (g.nodeAt b).isSome) : (g.nodeAt a).isSome := by
  obtain ⟨steps, rfl⟩ := hab
  induction steps with
  | nil => exact hb
  | cons i steps ih =>
      obtain ⟨n, hn⟩ := Option.isSome_iff_exists.mp hb
      obtain ⟨m, hm, -⟩ := exists_of_nodeAt_cons hn
      exact ih (Option.isSome_iff_exists.mpr ⟨m, hm⟩)

/-! ## 2. One way to each label -/

variable (g)

/-- No edge leads to the label of the root. -/
def Rooted : Prop :=
  ∀ m i n, g.next m i = some n → g.label n ≠ g.label g.root

/-- No two edges out of reached nodes lead to one label. -/
def Once : Prop :=
  ∀ m i n m' i' n', g.Reached m → g.Reached m' → g.next m i = some n → g.next m' i' = some n' →
    g.label n = g.label n' → m = m' ∧ i = i'

variable {g}

/-- Two addresses of one label are one address. The last steps are one edge, and what they leave are
    two addresses of one node. -/
theorem Once.injective (hroot : g.Rooted) (hone : g.Once) (ha : g.nodeAt a = some m)
    (hb : g.nodeAt b = some n) (hlabel : g.label m = g.label n) : a = b := by
  induction a generalizing b m n with
  | nil =>
      cases ha
      cases b with
      | nil => rfl
      | cons j down =>
          obtain ⟨q, -, hnext⟩ := exists_of_nodeAt_cons hb
          exact absurd hlabel.symm (hroot q j n hnext)
  | cons i up ih =>
      obtain ⟨p, hp, hpm⟩ := exists_of_nodeAt_cons ha
      cases b with
      | nil =>
          cases hb
          exact absurd hlabel (hroot p i m hpm)
      | cons j down =>
          obtain ⟨q, hq, hqn⟩ := exists_of_nodeAt_cons hb
          obtain ⟨hpq, hij⟩ := hone p i m q j n (reached_iff.mpr ⟨up, hp⟩)
            (reached_iff.mpr ⟨down, hq⟩) hpm hqn hlabel
          have hup : up = down := ih hp hq (congrArg g.label hpq)
          rw [hij, hup]

/-- One address to each label is one edge. -/
theorem once_of_injective (h : ∀ a i m b j n, g.nodeAt (i :: a) = some m →
    g.nodeAt (j :: b) = some n → g.label m = g.label n → i :: a = j :: b) : g.Once := by
  intro m i n m' i' n' hm hm' hn hn' hlabel
  obtain ⟨a, ha⟩ := reached_iff.mp hm
  obtain ⟨b, hb⟩ := reached_iff.mp hm'
  have hab : i :: a = i' :: b :=
    h _ _ n _ _ n' ((nodeAt_cons ha).trans hn) ((nodeAt_cons hb).trans hn') hlabel
  obtain ⟨rfl, rfl⟩ := List.cons.inj hab
  rw [ha] at hb
  exact ⟨Option.some.inj hb, rfl⟩

/-- An address is no longer than there are labels: the nodes it passes have one each. -/
theorem Once.length_lt [Fintype φ] (hroot : g.Rooted) (hone : g.Once) (ha : g.nodeAt a = some m) :
    a.length < Fintype.card φ := by
  have hpassed : ∀ k : Fin (a.length + 1), ∃ n, g.nodeAt (a.drop k) = some n := by
    intro k
    refine Option.isSome_iff_exists.mp (nodeAt_of_suffix (List.drop_suffix _ _) ?_)
    rw [ha]
    rfl
  choose node hnode using hpassed
  have hinj : Function.Injective fun k => g.label (node k) := by
    intro k k' hlabel
    have hdrop : a.drop k = a.drop k' := hone.injective hroot (hnode k) (hnode k') hlabel
    have hlen := congrArg List.length hdrop
    rw [List.length_drop, List.length_drop] at hlen
    have hk := k.isLt
    have hk' := k'.isLt
    exact Fin.ext (by omega)
  have hcard := Fintype.card_le_of_injective _ hinj
  rw [Fintype.card_fin] at hcard
  exact hcard

/-! ## 3. Walks -/

variable (g)

/-- The addresses from one on: each with a node is listed, once. -/
structure Lists (a : List Nat) (visited : List (List Nat)) : Prop where
  nodup : visited.Nodup
  mem : ∀ b, b ∈ visited ↔ a <:+ b ∧ (g.nodeAt b).isSome

/-- The addresses through the first `k` edges of one. -/
structure ListsBelow (a : List Nat) (k : Nat) (visited : List (List Nat)) : Prop where
  nodup : visited.Nodup
  mem : ∀ b, b ∈ visited ↔ (∃ i < k, i :: a <:+ b) ∧ (g.nodeAt b).isSome

variable {g} {visited more : List (List Nat)}

/-- A longer address passes one edge first. -/
theorem suffix_iff_cons : a <:+ b ↔ b = a ∨ ∃ i, i :: a <:+ b := by
  constructor
  · rintro ⟨steps, rfl⟩
    rcases List.eq_nil_or_concat steps with rfl | ⟨steps, i, rfl⟩
    · exact .inl rfl
    · exact .inr ⟨i, steps, by rw [List.concat_eq_append, List.append_assoc, List.singleton_append]⟩
  · rintro (rfl | ⟨i, hi⟩)
    · exact List.suffix_refl b
    · exact (List.suffix_cons i a).trans hi

/-- The first edge of a longer address is its own. -/
theorem eq_of_cons_suffix (hi : i :: a <:+ b) (hk : k :: a <:+ b) : i = k := by
  have hsuffix : i :: a <:+ k :: a := List.suffix_of_suffix_length_le hi hk (by simp)
  have heq := hsuffix.eq_of_length (by simp)
  exact (List.cons.inj heq).1

theorem Lists.none (hn : g.nodeAt a = none) : g.Lists a [] where
  nodup := List.nodup_nil
  mem b := by
    constructor
    · intro hb
      cases hb
    · rintro ⟨hab, hb⟩
      have ha := nodeAt_of_suffix hab hb
      rw [hn] at ha
      cases ha

theorem ListsBelow.zero : g.ListsBelow a 0 [] where
  nodup := List.nodup_nil
  mem b := by simp

theorem ListsBelow.succ (hbelow : g.ListsBelow a k visited) (hnext : g.Lists (k :: a) more) :
    g.ListsBelow a (k + 1) (visited ++ more) where
  nodup := by
    refine List.nodup_append.mpr ⟨hbelow.nodup, hnext.nodup, ?_⟩
    rintro b hb c hc rfl
    obtain ⟨⟨i, hi, hib⟩, -⟩ := (hbelow.mem b).mp hb
    have hik : i = k := eq_of_cons_suffix hib ((hnext.mem b).mp hc).1
    omega
  mem b := by
    rw [List.mem_append, hbelow.mem, hnext.mem]
    constructor
    · rintro (⟨⟨i, hi, hib⟩, hb⟩ | ⟨hkb, hb⟩)
      · exact ⟨⟨i, by omega, hib⟩, hb⟩
      · exact ⟨⟨k, by omega, hkb⟩, hb⟩
    · rintro ⟨⟨i, hi, hib⟩, hb⟩
      rcases Nat.lt_succ_iff_lt_or_eq.mp hi with hlt | rfl
      · exact .inl ⟨⟨i, hlt, hib⟩, hb⟩
      · exact .inr ⟨hib, hb⟩

/-- A node and what is below its edges. -/
theorem Lists.node (hm : g.nodeAt a = some m) (hmax : ∀ i, (g.next m i).isSome → i < k)
    (hbelow : g.ListsBelow a k visited) : g.Lists a (a :: visited) where
  nodup := by
    refine List.nodup_cons.mpr ⟨?_, hbelow.nodup⟩
    intro ha
    obtain ⟨⟨i, -, hi⟩, -⟩ := (hbelow.mem a).mp ha
    have hlen := hi.length_le
    rw [List.length_cons] at hlen
    omega
  mem b := by
    rw [List.mem_cons, hbelow.mem, suffix_iff_cons]
    constructor
    · rintro (rfl | ⟨⟨i, -, hib⟩, hb⟩)
      · exact ⟨.inl rfl, by rw [hm]; rfl⟩
      · exact ⟨.inr ⟨i, hib⟩, hb⟩
    · rintro ⟨rfl | ⟨i, hib⟩, hb⟩
      · exact .inl rfl
      · have hi := nodeAt_of_suffix hib hb
        rw [nodeAt_cons hm] at hi
        exact .inr ⟨⟨i, hmax i hi, hib⟩, hb⟩

/-- A walk from the root goes through every address with a node. -/
theorem Lists.mem_root (h : g.Lists [] visited) : b ∈ visited ↔ (g.nodeAt b).isSome := by
  rw [h.mem]
  exact and_iff_right (List.nil_suffix)

/-- A walk that has gone through everything has gone no deeper than to some depth. -/
theorem Lists.bounded (h : g.Lists [] visited) :
    ∃ depth, ∀ b, (g.nodeAt b).isSome → b.length < depth := by
  refine ⟨(visited.map List.length).sum + 1, ?_⟩
  intro b hb
  have hmem := List.mem_map_of_mem (f := List.length) (h.mem_root.mpr hb)
  have hle := List.single_le_sum (fun _ _ => Nat.zero_le _) _ hmem
  omega

end RootedGraph

end Lib
