import Domoio.Lib.OrderedMap

/-
  File:      Domoio/Lib/Locality.lean
  Subject:   Updates of a map that touch a set of keys only.

  A local update leaves the keys outside its set alone, and what it does inside depends on nothing
  outside. Local updates of disjoint sets commute (`Local.comm`), and what one of them makes of a
  map that the other has changed tells, key by key, what each makes of the map as it was
  (`Local.comp_eq_iff`). Insertions, replacements and read-backs are local to the keys they name.
-/

namespace Lib

open Std

variable {α β : Type*} {cmp : α → α → Ordering} [TransCmp cmp] [LawfulEqCmp cmp]

/-- On maps that meet `P`, the update `f` is local to `S`. -/
structure Local (P : ExtTreeMap α β cmp → Prop) (S : Set α)
    (f : ExtTreeMap α β cmp → ExtTreeMap α β cmp) : Prop where
  keeps : ∀ {m}, P m → P (f m)
  outside : ∀ {m} {k : α}, P m → k ∉ S → (f m)[k]? = m[k]?
  inside : ∀ {m m' : ExtTreeMap α β cmp} {k : α}, P m → P m' →
    (∀ j ∈ S, m[j]? = m'[j]?) → k ∈ S → (f m)[k]? = (f m')[k]?

namespace Local

variable {P : ExtTreeMap α β cmp → Prop} {S T : Set α} {m : ExtTreeMap α β cmp}
  {f e g h : ExtTreeMap α β cmp → ExtTreeMap α β cmp}

omit [LawfulEqCmp cmp] in
variable (P S) in
/-- Doing nothing is local to every set. -/
theorem id : Local P S (fun m : ExtTreeMap α β cmp => m) where
  keeps hm := hm
  outside _ _ := rfl
  inside _ _ heq hk := heq _ hk

omit [LawfulEqCmp cmp] in
/-- Behind an update of other keys a local update finds its own keys as they were. -/
theorem after (hf : Local P S f) (hg : Local P T g) (hd : Disjoint S T) (hm : P m) {k : α}
    (hk : k ∈ T) : (g (f m))[k]? = (g m)[k]? := by
  refine hg.inside (hf.keeps hm) hm (fun j hj => hf.outside hm fun hjS => ?_) hk
  exact Set.disjoint_left.mp hd hjS hj

/-- Two updates, one after the other, against two others of the same keys. -/
theorem comp_eq_iff (hf : Local P S f) (he : Local P S e) (hg : Local P T g) (hh : Local P T h)
    (hd : Disjoint S T) (hm : P m) : g (f m) = h (e m) ↔ f m = e m ∧ g m = h m := by
  constructor
  · intro heq
    constructor
    · apply ExtTreeMap.ext_getElem?
      intro k
      by_cases hk : k ∈ S
      · -- a key of `f`: neither `g` nor `h` touches it
        have hkT : k ∉ T := fun hkT => Set.disjoint_left.mp hd hk hkT
        rw [← hg.outside (hf.keeps hm) hkT, heq, hh.outside (he.keeps hm) hkT]
      · rw [hf.outside hm hk, he.outside hm hk]
    · apply ExtTreeMap.ext_getElem?
      intro k
      by_cases hk : k ∈ T
      · rw [← hf.after hg hd hm hk, heq, he.after hh hd hm hk]
      · rw [hg.outside hm hk, hh.outside hm hk]
  · intro hboth
    obtain ⟨hfe, hgh⟩ := hboth
    apply ExtTreeMap.ext_getElem?
    intro k
    by_cases hk : k ∈ T
    · rw [hf.after hg hd hm hk, he.after hh hd hm hk, hgh]
    · rw [hg.outside (hf.keeps hm) hk, hh.outside (he.keeps hm) hk, hfe]

/-- Updates of disjoint sets of keys commute. -/
theorem comm (hf : Local P S f) (hg : Local P T g) (hd : Disjoint S T) (hm : P m) :
    g (f m) = f (g m) := by
  apply ExtTreeMap.ext_getElem?
  intro k
  by_cases hk : k ∈ T
  · have hkS : k ∉ S := fun hkS => Set.disjoint_left.mp hd hkS hk
    rw [hf.after hg hd hm hk, hf.outside (hg.keeps hm) hkS]
  · by_cases hkS : k ∈ S
    · rw [hg.outside (hf.keeps hm) hk, hg.after hf hd.symm hm hkS]
    · rw [hg.outside (hf.keeps hm) hk, hf.outside hm hkS, hf.outside (hg.keeps hm) hkS,
        hg.outside hm hk]

section Own

variable [DecidableEq α] {own : β → α} {k : α} {v : β}

theorem insert (v : β) (hS : own v ∈ S) :
    Local (OrderedMap.OwnKeyed own) S (fun m : ExtTreeMap α β cmp => m.insert (own v) v) where
  keeps hm := hm.insert v
  outside hm hj := OrderedMap.getElem?_insert_ne fun heq => hj (heq ▸ hS)
  inside {m m' j} hm hm' heq hj := by
    by_cases h : j = own v
    · rw [h, ExtTreeMap.getElem?_insert_self, ExtTreeMap.getElem?_insert_self]
    · rw [OrderedMap.getElem?_insert_ne h, OrderedMap.getElem?_insert_ne h]
      exact heq j hj

theorem erase (k : α) (hS : k ∈ S) :
    Local (OrderedMap.OwnKeyed own) S (fun m : ExtTreeMap α β cmp => m.erase k) where
  keeps hm := hm.erase k
  outside hm hj := OrderedMap.getElem?_erase_ne fun heq => hj (heq ▸ hS)
  inside {m m' j} hm hm' heq hj := by
    by_cases h : j = k
    · rw [h, ExtTreeMap.getElem?_erase_self, ExtTreeMap.getElem?_erase_self]
    · rw [OrderedMap.getElem?_erase_ne h, OrderedMap.getElem?_erase_ne h]
      exact heq j hj

omit [LawfulEqCmp cmp] [DecidableEq α] in
/-- Updates of one set of keys, one after the other. -/
theorem comp (hf : Local P S f) (hg : Local P S g) :
    Local P S (fun m : ExtTreeMap α β cmp => g (f m)) where
  keeps hm := hg.keeps (hf.keeps hm)
  outside hm hj := (hg.outside (hf.keeps hm) hj).trans (hf.outside hm hj)
  inside hm hm' heq hj := hg.inside (hf.keeps hm) (hf.keeps hm')
    (fun _ hi => hf.inside hm hm' heq hi) hj

theorem rekeyInsert (k : α) (v : β) (hk : k ∈ S) (hv : own v ∈ S) :
    Local (OrderedMap.OwnKeyed own) S
      (fun m : ExtTreeMap α β cmp => OrderedMap.rekey own (m.insert k v)) where
  keeps hm := OrderedMap.ownKeyed_rekey _
  outside hm hj := OrderedMap.getElem?_rekey_insert_other hm (fun heq => hj (heq ▸ hv))
    fun heq => hj (heq ▸ hk)
  inside {m m' j} hm hm' heq hj := by
    by_cases h : j = own v
    · rw [h, OrderedMap.getElem?_rekey_insert_own hm, OrderedMap.getElem?_rekey_insert_own hm',
        heq _ hv]
    · by_cases hjk : j = k
      · rw [hjk, OrderedMap.getElem?_rekey_insert_key hm (hjk ▸ h),
          OrderedMap.getElem?_rekey_insert_key hm' (hjk ▸ h)]
      · rw [OrderedMap.getElem?_rekey_insert_other hm h hjk,
          OrderedMap.getElem?_rekey_insert_other hm' h hjk]
        exact heq j hj

end Own

end Local

end Lib
