import Mathlib

/-
  File:      Domoio/Lib/OrderedMap.lean
  Subject:   Ordered maps whose values name a key of their own.

  A map that is written out as the list of its values and read back is keyed by what the values
  say (`rekey`). That is the map itself where every value is stored under its own key
  (`rekey_of_ownKeyed`). A value stored in place of another moves to its own key exactly when nothing
  different is there that comes behind it (`rekey_insert_eq_iff`); in any case only values of the map
  are found, under their own keys (`mem_of_getElem?_rekey`).
-/

namespace Lib

open Std

namespace OrderedMap

variable {α β : Type*} {cmp : α → α → Ordering} [TransCmp cmp] [LawfulEqCmp cmp]

/-- Inserting every entry of a map into one that has no other keys gives the map. -/
theorem insertMany_toList [DecidableEq α] {m m₀ : ExtTreeMap α β cmp}
    (h : ∀ k : α, m₀[k]?.isSome → m[k]?.isSome) : m₀.insertMany m.toList = m := by
  apply ExtTreeMap.ext_getElem?
  intro k
  cases hk : m[k]? with
  | some v =>
      have hmem : (k, v) ∈ m.toList := ExtTreeMap.mem_toList_iff_getElem?_eq_some.mpr hk
      exact ExtTreeMap.getElem?_insertMany_list_of_mem (by simp) ExtTreeMap.distinct_keys_toList hmem
  | none =>
      have hnot : (m.toList.map Prod.fst).contains k = false := by
        by_contra hc
        rw [Bool.not_eq_false, List.contains_iff_mem] at hc
        obtain ⟨⟨k', v⟩, hmem, rfl⟩ := List.mem_map.mp hc
        rw [ExtTreeMap.mem_toList_iff_getElem?_eq_some, hk] at hmem
        cases hmem
      rw [ExtTreeMap.getElem?_insertMany_list_of_contains_eq_false hnot]
      by_contra hne
      have hsome := h k (Option.ne_none_iff_isSome.mp hne)
      rw [hk] at hsome
      cases hsome

variable (own : β → α)

/-- Every value is stored under its own key. -/
def OwnKeyed (m : ExtTreeMap α β cmp) : Prop := ∀ (k : α) (v : β), m[k]? = some v → own v = k

/-- The map read back from the list of its values. -/
def rekey (m : ExtTreeMap α β cmp) : ExtTreeMap α β cmp :=
  (∅ : ExtTreeMap α β cmp).insertMany (m.toList.map fun p => (own p.2, p.2))

variable {own} {m : ExtTreeMap α β cmp}

theorem OwnKeyed.map_toList (h : OwnKeyed own m) :
    m.toList.map (fun p => (own p.2, p.2)) = m.toList := by
  refine (List.map_congr_left fun p hp => ?_).trans (List.map_id _)
  rw [h p.1 p.2 (ExtTreeMap.mem_toList_iff_getElem?_eq_some.mp hp)]
  rfl

theorem rekey_of_ownKeyed [DecidableEq α] (h : OwnKeyed own m) : rekey own m = m := by
  rw [rekey, h.map_toList]
  exact insertMany_toList fun k hk => by simp at hk

omit [LawfulEqCmp cmp] in
theorem ownKeyed_empty : OwnKeyed own (∅ : ExtTreeMap α β cmp) := by
  intro k v h
  simp at h

theorem OwnKeyed.insert (h : OwnKeyed own m) (v : β) : OwnKeyed own (m.insert (own v) v) := by
  intro k u hu
  rw [ExtTreeMap.getElem?_insert] at hu
  split at hu
  · rename_i hk
    cases hu
    exact LawfulEqCmp.eq_of_compare hk
  · exact h k u hu

theorem ownKeyed_rekey (m : ExtTreeMap α β cmp) : OwnKeyed own (rekey own m) := by
  have hlist : ∀ (l : List (α × β)) (m₀ : ExtTreeMap α β cmp), OwnKeyed own m₀ →
      OwnKeyed own (m₀.insertMany (l.map fun p => (own p.2, p.2))) := by
    intro l
    induction l with
    | nil =>
        intro m₀ h
        simpa using h
    | cons p l ih =>
        intro m₀ h
        rw [List.map_cons, ExtTreeMap.insertMany_cons]
        exact ih _ (h.insert p.2)
  exact hlist m.toList ∅ ownKeyed_empty

/-- A change of the values that leaves their own keys as they are. -/
theorem ownKeyed_map_iff {f : β → β} (hf : ∀ v, own (f v) = own v) :
    OwnKeyed own (m.map fun _ => f) ↔ OwnKeyed own m := by
  constructor
  · intro h k v hv
    rw [← hf v]
    exact h k (f v) (by rw [ExtTreeMap.getElem?_map, hv, Option.map_some])
  · intro h k v hv
    rw [ExtTreeMap.getElem?_map, Option.map_eq_some_iff] at hv
    obtain ⟨u, hu, rfl⟩ := hv
    rw [hf, h k u hu]

/-- What is found in a map read back names the key, and was in the map. -/
theorem mem_of_getElem?_rekey {k : α} {v : β} (h : (rekey own m)[k]? = some v) :
    own v = k ∧ ∃ k' : α, m[k']? = some v := by
  refine ⟨ownKeyed_rekey m k v h, ?_⟩
  have hlist : ∀ (l : List (α × β)) (m₀ : ExtTreeMap α β cmp),
      (m₀.insertMany (l.map fun p => (own p.2, p.2)))[k]? = some v →
        m₀[k]? = some v ∨ ∃ k', (k', v) ∈ l := by
    intro l
    induction l with
    | nil =>
        intro m₀ h
        exact Or.inl (by simpa using h)
    | cons p l ih =>
        intro m₀ h
        rw [List.map_cons, ExtTreeMap.insertMany_cons] at h
        rcases ih _ h with h | ⟨k', hk'⟩
        · rw [ExtTreeMap.getElem?_insert] at h
          split at h
          · cases h
            exact Or.inr ⟨p.1, List.mem_cons_self⟩
          · exact Or.inl h
        · exact Or.inr ⟨k', List.mem_cons_of_mem _ hk'⟩
  rcases hlist m.toList ∅ h with h | ⟨k', hk'⟩
  · simp at h
  · exact ⟨k', ExtTreeMap.mem_toList_iff_getElem?_eq_some.mp hk'⟩

/-- Of the values that name one key, the one stored under the greatest key is read back. -/
theorem getElem?_rekey_of_last [DecidableEq α] {k : α} {v : β} (hv : m[k]? = some v)
    (hlast : ∀ (k' : α) (v' : β), m[k']? = some v' → own v' = own v → cmp k k' ≠ .lt) :
    (rekey own m)[own v]? = some v := by
  have hmem : (k, v) ∈ m.toList := ExtTreeMap.mem_toList_iff_getElem?_eq_some.mpr hv
  obtain ⟨before, after, hlist⟩ := List.append_of_mem hmem
  -- behind the entry come greater keys, and none of them has this key of its own
  have hafter : ((after.map fun p => (own p.2, p.2)).map Prod.fst).contains (own v) = false := by
    by_contra hc
    rw [Bool.not_eq_false, List.contains_iff_mem, List.map_map] at hc
    obtain ⟨⟨k', v'⟩, hp, heq⟩ := List.mem_map.mp hc
    have hmem' : (k', v') ∈ m.toList := by
      rw [hlist]
      exact List.mem_append_right _ (List.mem_cons_of_mem _ hp)
    have hsorted := ExtTreeMap.ordered_keys_toList (t := m)
    rw [hlist] at hsorted
    have hlt := (List.pairwise_cons.mp (List.pairwise_append.mp hsorted).2.1).1 (k', v') hp
    exact hlast k' v' (ExtTreeMap.mem_toList_iff_getElem?_eq_some.mp hmem') heq hlt
  rw [rekey, hlist, List.map_append, ExtTreeMap.insertMany_append, List.map_cons,
    ExtTreeMap.insertMany_cons, ExtTreeMap.getElem?_insertMany_list_of_contains_eq_false hafter]
  exact ExtTreeMap.getElem?_insert_self

theorem getElem?_erase_ne {k i : α} (hi : i ≠ k) : (m.erase k)[i]? = m[i]? := by
  rw [ExtTreeMap.getElem?_erase, if_neg fun heq => hi (LawfulEqCmp.eq_of_compare heq).symm]

omit [LawfulEqCmp cmp] in
theorem OwnKeyed.erase (h : OwnKeyed own m) (k : α) : OwnKeyed own (m.erase k) := by
  intro j v hv
  rw [ExtTreeMap.getElem?_erase] at hv
  split at hv
  · cases hv
  · exact h j v hv

theorem getElem?_insert_ne {k i : α} {v : β} (hi : i ≠ k) : (m.insert k v)[i]? = m[i]? := by
  rw [ExtTreeMap.getElem?_insert, if_neg fun heq => hi (LawfulEqCmp.eq_of_compare heq).symm]

omit [LawfulEqCmp cmp] in
variable (cmp) in
theorem compare_self_ne_lt (i : α) : cmp i i ≠ .lt := by
  have hself : cmp i i = .eq := ReflCmp.compare_self
  rw [hself]
  simp

section RekeyInsert

variable [DecidableEq α] {k j : α} {v : β}

/-- A value put under another key is read back under its own, unless one is there already and the
    other key comes before it. -/
theorem getElem?_rekey_insert_own (h : OwnKeyed own m) : (rekey own (m.insert k v))[own v]? =
    if cmp k (own v) = .lt then some (m[own v]?.getD v) else some v := by
  have hv : (m.insert k v)[k]? = some v := ExtTreeMap.getElem?_insert_self
  cases hu : m[own v]? with
  | none =>
      rw [Option.getD_none, ite_self]
      refine getElem?_rekey_of_last hv fun i u hi heq => ?_
      by_cases hik : i = k
      · rw [hik]
        exact compare_self_ne_lt cmp k
      · rw [getElem?_insert_ne hik] at hi
        rw [← h i u hi, heq, hu] at hi
        cases hi
  | some u =>
      have hown : own u = own v := h _ _ hu
      rw [Option.getD_some]
      split
      · rename_i hlt
        have hne : own v ≠ k := fun heq => compare_self_ne_lt cmp k (heq ▸ hlt)
        have hins : (m.insert k v)[own v]? = some u := (getElem?_insert_ne hne).trans hu
        rw [← hown] at hins hlt ⊢
        refine getElem?_rekey_of_last hins fun i u' hi heq => ?_
        by_cases hik : i = k
        · rw [hik, OrientedCmp.gt_of_lt hlt]
          simp
        · rw [getElem?_insert_ne hik] at hi
          rw [← h i u' hi, heq]
          exact compare_self_ne_lt cmp _
      · rename_i hlt
        refine getElem?_rekey_of_last hv fun i u' hi heq => ?_
        by_cases hik : i = k
        · rw [hik]
          exact compare_self_ne_lt cmp k
        · rw [getElem?_insert_ne hik] at hi
          rw [← h i u' hi, heq]
          exact hlt

/-- Nothing is read back under the key it was put under. -/
theorem getElem?_rekey_insert_key (h : OwnKeyed own m) (hk : k ≠ own v) :
    (rekey own (m.insert k v))[k]? = none := by
  by_contra hne
  obtain ⟨u, hu⟩ := Option.ne_none_iff_exists'.mp hne
  obtain ⟨hown, i, hi⟩ := mem_of_getElem?_rekey hu
  by_cases hik : i = k
  · rw [hik, ExtTreeMap.getElem?_insert_self] at hi
    cases hi
    exact hk hown.symm
  · rw [getElem?_insert_ne hik] at hi
    exact hik ((h i u hi).symm.trans hown)

/-- Under every other key the map is read back as it was. -/
theorem getElem?_rekey_insert_other (h : OwnKeyed own m) (hj : j ≠ own v) (hjk : j ≠ k) :
    (rekey own (m.insert k v))[j]? = m[j]? := by
  apply Option.ext
  intro u
  constructor
  · intro hu
    obtain ⟨hown, i, hi⟩ := mem_of_getElem?_rekey hu
    by_cases hik : i = k
    · rw [hik, ExtTreeMap.getElem?_insert_self] at hi
      cases hi
      exact absurd hown.symm hj
    · rw [getElem?_insert_ne hik] at hi
      rwa [← h i u hi, hown] at hi
  · intro hu
    have hown : own u = j := h _ _ hu
    have hins : (m.insert k v)[j]? = some u := (getElem?_insert_ne hjk).trans hu
    rw [← hown]
    refine getElem?_rekey_of_last hins fun i u' hi heq => ?_
    by_cases hik : i = k
    · rw [hik, ExtTreeMap.getElem?_insert_self] at hi
      cases hi
      exact absurd (hown.symm.trans heq.symm) hj
    · rw [getElem?_insert_ne hik] at hi
      rw [← h i u' hi, heq, hown]
      exact compare_self_ne_lt cmp j

end RekeyInsert

/-- A value put in place of another is moved to its own key exactly when nothing different is there
    that comes behind it. -/
theorem rekey_insert_eq_iff [DecidableEq α] (h : OwnKeyed own m) {k : α} {v : β} :
    rekey own (m.insert k v) = (m.erase k).insert (own v) v ↔
      (cmp k (own v) = .lt → m[own v]? = none ∨ m[own v]? = some v) := by
  constructor
  · intro heq hlt
    have hown := getElem?_rekey_insert_own h (k := k) (v := v)
    rw [heq, ExtTreeMap.getElem?_insert_self, if_pos hlt] at hown
    cases hu : m[own v]? with
    | none => exact Or.inl rfl
    | some u =>
        rw [hu] at hown
        exact Or.inr hown.symm
  · intro hlast
    apply ExtTreeMap.ext_getElem?
    intro j
    by_cases hj : j = own v
    · rw [hj, getElem?_rekey_insert_own h, ExtTreeMap.getElem?_insert_self]
      split
      · rename_i hlt
        rcases hlast hlt with hu | hu
        · rw [hu, Option.getD_none]
        · rw [hu, Option.getD_some]
      · rfl
    · rw [getElem?_insert_ne hj, ExtTreeMap.getElem?_erase]
      by_cases hjk : j = k
      · have hself : cmp k j = .eq := by
          rw [hjk]
          exact ReflCmp.compare_self
        rw [if_pos hself, hjk]
        exact getElem?_rekey_insert_key h (hjk ▸ hj)
      · rw [if_neg fun heq => hjk (LawfulEqCmp.eq_of_compare heq).symm]
        exact getElem?_rekey_insert_other h hj hjk

/-- A value put in place of one moves to its own key, if nothing else is there. -/
theorem rekey_insert_free [DecidableEq α] (h : OwnKeyed own m) {k : α} {v : β}
    (hfree : m[own v]? = none) : rekey own (m.insert k v) = (m.erase k).insert (own v) v :=
  (rekey_insert_eq_iff h).mpr fun _ => Or.inl hfree

/-- Putting in what is there changes nothing. -/
theorem insert_self {k : α} {v : β} (hv : m[k]? = some v) : m.insert k v = m := by
  apply ExtTreeMap.ext_getElem?
  intro j
  by_cases hj : cmp k j = .eq
  · rw [← LawfulEqCmp.eq_of_compare hj, ExtTreeMap.getElem?_insert_self, hv]
  · rw [ExtTreeMap.getElem?_insert, if_neg hj]

/-- Taking an entry out before another value is put in its place changes nothing. -/
theorem insert_erase_self {k : α} {v : β} : (m.erase k).insert k v = m.insert k v := by
  apply ExtTreeMap.ext_getElem?
  intro j
  rw [ExtTreeMap.getElem?_insert, ExtTreeMap.getElem?_insert, ExtTreeMap.getElem?_erase]
  by_cases hj : cmp k j = .eq
  · rw [if_pos hj, if_pos hj]
  · rw [if_neg hj, if_neg hj, if_neg hj]

omit [LawfulEqCmp cmp] in
/-- An insertion adds an entry exactly when there is none under its key. -/
theorem size_insert_eq_succ_iff {k : α} {v : β} :
    (m.insert k v).size = m.size + 1 ↔ m[k]? = none := by
  rw [ExtTreeMap.size_insert, ExtTreeMap.contains_eq_isSome_getElem?]
  cases m[k]? with
  | none => simp
  | some u => simp

/-- Taking an entry out and putting one in keeps the number of entries exactly when the new key is
    the old one or a free one. -/
theorem size_insert_erase_eq_iff {k j : α} {v u : β} (hk : m[k]? = some u) :
    ((m.erase k).insert j v).size = m.size ↔ j = k ∨ m[j]? = none := by
  have hmem : m.contains k = true := by
    rw [ExtTreeMap.contains_eq_isSome_getElem?, hk]
    rfl
  have hpos : m.size ≠ 0 := by
    intro hzero
    rw [ExtTreeMap.eq_empty_iff_size_eq_zero.mpr hzero] at hk
    simp at hk
  have hsize : (m.erase k).size + 1 = m.size := by
    rw [ExtTreeMap.size_erase, if_pos hmem]
    omega
  rw [← hsize, size_insert_eq_succ_iff, ExtTreeMap.getElem?_erase]
  by_cases hj : cmp k j = .eq
  · rw [if_pos hj]
    exact iff_of_true rfl (Or.inl (LawfulEqCmp.eq_of_compare hj).symm)
  · rw [if_neg hj]
    refine ⟨Or.inr, fun h => h.resolve_left fun heq => hj ?_⟩
    rw [heq]
    exact ReflCmp.compare_self

end OrderedMap

end Lib
