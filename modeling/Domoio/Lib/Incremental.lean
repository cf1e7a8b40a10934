import Mathlib.Data.List.Forall2

/-
  File:      Domoio/Lib/Incremental.lean
  Subject:   Decoders of a stream that arrives in segments.

  A decoder looks at the symbols that are there: they are not enough, or an item and the number of
  symbols it takes, or nothing it could go on from. What has been decoded is taken off before the next
  segment is put behind what is left. A decoder that does not change its mind when more arrives
  (`Incremental`) gives the same for every cut of a stream (`received_eq`), and the items it gives are
  read off the whole stream (`received_live_iff`, `received_faulted_iff`).
-/

namespace Lib

variable {α β : Type}

/-- What a decoder makes of the symbols that are there. -/
inductive Decoded (β : Type) where
  | more
  | item (b : β) (size : Nat)
  | fault

/-- The items so far, and what is left while the decoder goes on. -/
inductive Intake (α β : Type) where
  | live (items : List β) (pending : List α)
  | faulted (items : List β)

/-- What is decided of the symbols that are there does not depend on those that follow. -/
structure Incremental (decode : List α → Decoded β) : Prop where
  nil : decode [] = .more
  size : ∀ {s b n}, decode s = .item b n → 0 < n ∧ n ≤ s.length
  item : ∀ {s b n}, decode s = .item b n → ∀ t, decode (s ++ t) = .item b n
  fault : ∀ {s}, decode s = .fault → ∀ t, decode (s ++ t) = .fault

/-- The word is one item and nothing else. -/
def Codes (decode : List α → Decoded β) (w : List α) (b : β) : Prop := decode w = .item b w.length

/-- One after the other the items are taken off, which leaves a rest. -/
inductive Splits (decode : List α → Decoded β) : List α → List β → List α → Prop where
  | done (s : List α) : Splits decode s [] s
  | item {s bs rest b n} : decode s = .item b n → Splits decode (s.drop n) bs rest →
      Splits decode s (b :: bs) rest

namespace Intake

variable (decode : List α → Decoded β)

/-- Items are taken off as long as there are any. -/
def drain : Nat → List β → List α → Intake α β
  | 0, items, s => .live items s
  | fuel + 1, items, s =>
      match decode s with
      | .more => .live items s
      | .item b n => drain fuel (items ++ [b]) (s.drop n)
      | .fault => .faulted items

/-- The symbols are fuel enough, for every item takes one. -/
def drained (items : List β) (s : List α) : Intake α β := drain decode s.length items s

/-- The next segment. -/
def receive : Intake α β → List α → Intake α β
  | .live items pending, s => drained decode items (pending ++ s)
  | .faulted items, _ => .faulted items

/-- Segments, one after the other. -/
def received (segments : List (List α)) : Intake α β := segments.foldl (receive decode) (.live [] [])

/-- The same with items before it. -/
def behind (items : List β) : Intake α β → Intake α β
  | .live bs pending => .live (items ++ bs) pending
  | .faulted bs => .faulted (items ++ bs)

variable {decode} {items bs : List β} {s t rest : List α} {b : β} {n fuel : Nat}

/-! ## 1. Draining -/

theorem exists_length (h : Incremental decode) (hs : decode s ≠ .more) : ∃ l, s.length = l + 1 := by
  cases s with
  | nil => exact absurd h.nil hs
  | cons a s => exact ⟨s.length, List.length_cons⟩

theorem drain_fuel (h : Incremental decode) (hfuel : s.length ≤ fuel) :
    drain decode fuel items s = drained decode items s := by
  rw [drained]
  induction fuel using Nat.strongRecOn generalizing items s with
  | ind fuel ih =>
      cases fuel with
      | zero => rw [Nat.le_zero.mp hfuel]
      | succ fuel =>
          cases hs : decode s with
          | more => cases hlength : s.length <;> simp [drain, hs]
          | fault =>
              obtain ⟨l, hl⟩ := exists_length (s := s) h (by simp [hs])
              simp [hl, drain, hs]
          | item b n =>
              have hsize := h.size hs
              obtain ⟨l, hl⟩ := exists_length (s := s) h (by simp [hs])
              have hdrop : (s.drop n).length ≤ l := by
                rw [List.length_drop]
                omega
              simp only [hl, drain, hs]
              rw [ih fuel (Nat.lt_succ_self _) (by omega), ih l (by omega) hdrop]

theorem drained_more (hs : decode s = .more) : drained decode items s = .live items s := by
  cases hlength : s.length <;> simp [drained, drain, hs, hlength]

theorem drained_item (h : Incremental decode) (hs : decode s = .item b n) :
    drained decode items s = drained decode (items ++ [b]) (s.drop n) := by
  have hsize := h.size hs
  obtain ⟨l, hl⟩ := exists_length (s := s) h (by simp [hs])
  have hdrop : (s.drop n).length ≤ l := by
    rw [List.length_drop]
    omega
  rw [drained, hl, drain, hs]
  exact drain_fuel h hdrop

theorem drained_fault (h : Incremental decode) (hs : decode s = .fault) :
    drained decode items s = .faulted items := by
  obtain ⟨l, hl⟩ := exists_length (s := s) h (by simp [hs])
  rw [drained, hl, drain, hs]

/-! ## 2. Segments -/

/-- Draining what is there, and then what is left with more behind it, is draining it all. -/
theorem receive_drained (h : Incremental decode) :
    receive decode (drained decode items s) t = drained decode items (s ++ t) := by
  generalize hlength : s.length = k
  induction k using Nat.strongRecOn generalizing items s with
  | ind k ih =>
      cases hs : decode s with
      | more => rw [drained_more hs, receive]
      | item b n =>
          have hsize := h.size hs
          rw [drained_item h hs, drained_item h (h.item hs t), List.drop_append_of_le_length hsize.2]
          refine ih _ ?_ rfl
          rw [List.length_drop]
          omega
      | fault => rw [drained_fault h hs, drained_fault h (h.fault hs t), receive]

theorem foldl_receive (h : Incremental decode) (segments : List (List α)) :
    segments.foldl (receive decode) (drained decode items s)
      = drained decode items (s ++ segments.flatten) := by
  induction segments generalizing s with
  | nil => simp
  | cons u segments ih =>
      rw [List.foldl_cons, receive_drained h, ih, List.flatten_cons, List.append_assoc]

/-- The cut of the stream does not matter. -/
theorem received_eq (h : Incremental decode) (segments : List (List α)) :
    received decode segments = drained decode [] segments.flatten := by
  have hnil : drained decode ([] : List β) [] = .live [] [] := drained_more h.nil
  rw [received, ← hnil, foldl_receive h, List.nil_append]

/-! ## 3. What the items are -/

theorem splits_flatten (h : Incremental decode) {words : List (List α)}
    (hwords : List.Forall₂ (Codes decode) words bs) (hs : Splits decode s items rest) :
    Splits decode (words.flatten ++ s) (bs ++ items) rest := by
  induction hwords with
  | nil => exact hs
  | @cons w b words bs hw _ ih =>
      have hitem := h.item hw (words.flatten ++ s)
      refine .item (n := w.length) ?_ ?_
      · rwa [List.flatten_cons, List.append_assoc]
      · rwa [List.flatten_cons, List.append_assoc, List.drop_left]

theorem drained_splits (h : Incremental decode) (hs : Splits decode s bs rest) :
    drained decode items s = drained decode (items ++ bs) rest := by
  induction hs generalizing items with
  | done s => rw [List.append_nil]
  | item hitem _ ih => rw [drained_item h hitem, ih, List.append_assoc, List.singleton_append]

/-- Draining ends: with a rest that is not enough for an item, or one the decoder gives up at. -/
theorem exists_splits (h : Incremental decode) (s : List α) :
    ∃ bs rest, Splits decode s bs rest ∧ (decode rest = .more ∨ decode rest = .fault) := by
  generalize hlength : s.length = k
  induction k using Nat.strongRecOn generalizing s with
  | ind k ih =>
      cases hs : decode s with
      | more => exact ⟨[], s, .done s, .inl hs⟩
      | fault => exact ⟨[], s, .done s, .inr hs⟩
      | item b n =>
          have hsize := h.size hs
          have hlt : (s.drop n).length < k := by
            rw [List.length_drop]
            omega
          obtain ⟨bs, rest, hsplits, hend⟩ := ih _ hlt (s.drop n) rfl
          exact ⟨b :: bs, rest, .item hs hsplits, hend⟩

/-- What the items before are does not matter. -/
theorem drained_items (h : Incremental decode) :
    drained decode items s = (drained decode [] s).behind items := by
  obtain ⟨bs, rest, hsplits, hend⟩ := exists_splits h s
  rw [drained_splits h hsplits, drained_splits h hsplits, List.nil_append]
  rcases hend with hmore | hfault
  · rw [drained_more hmore, drained_more hmore, behind]
  · rw [drained_fault h hfault, drained_fault h hfault, behind]

theorem drained_live_iff (h : Incremental decode) :
    drained decode [] s = .live items rest ↔ Splits decode s items rest ∧ decode rest = .more := by
  refine ⟨fun hs => ?_, fun ⟨hsplits, hmore⟩ => ?_⟩
  · obtain ⟨bs, r, hsplits, hend⟩ := exists_splits h s
    rw [drained_splits h hsplits, List.nil_append] at hs
    rcases hend with hmore | hfault
    · rw [drained_more hmore] at hs
      cases hs
      exact ⟨hsplits, hmore⟩
    · rw [drained_fault h hfault] at hs
      cases hs
  · rw [drained_splits h hsplits, List.nil_append, drained_more hmore]

theorem drained_faulted_iff (h : Incremental decode) :
    drained decode [] s = .faulted items ↔ ∃ rest, Splits decode s items rest ∧ decode rest = .fault := by
  refine ⟨fun hs => ?_, fun ⟨rest, hsplits, hfault⟩ => ?_⟩
  · obtain ⟨bs, r, hsplits, hend⟩ := exists_splits h s
    rw [drained_splits h hsplits, List.nil_append] at hs
    rcases hend with hmore | hfault
    · rw [drained_more hmore] at hs
      cases hs
    · rw [drained_fault h hfault] at hs
      cases hs
      exact ⟨r, hsplits, hfault⟩
  · rw [drained_splits h hsplits, List.nil_append, drained_fault h hfault]

end Intake

end Lib
