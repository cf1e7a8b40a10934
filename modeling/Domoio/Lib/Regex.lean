import Domoio.Lib.CText

/-
  File:      Domoio/Lib/Regex.lean
  Subject:   Regular expressions as a backtracking matcher runs them: leftmost, greedy, with groups.

  `results r s c` lists what the matcher would try on the text `s`, in its order of preference: each
  entry has the text left over and what the groups have caught. The first entry is the match.

  * `Prefers` -- the first entry, with one rule for each construct: where a greedy choice is the right
    one it is never taken back;
  * `Takes` -- the texts of an expression;
  * `Spells` -- the characters of one kind that every text of an expression has, in order;
  * `scan`, `replace` -- the matches in a text one after another;
  * `parse` -- the Perl syntax of these expressions.
-/

namespace Lib

/-- Regular expressions whose stars are over single characters. -/
inductive Regex (α : Type*) where
  | empty
  | one (p : α → Bool)
  | many (p : α → Bool)
  | opt (r : Regex α)
  | group (i : Nat) (r : Regex α)
  | seq (r t : Regex α)

namespace Regex

variable {α : Type*}

/-- What the groups have caught, the latest first. -/
abbrev Captures (α : Type*) := List (Nat × List α)

/-- The text of a group; one that took no part is empty. -/
def caught (c : Captures α) (i : Nat) : List α := (c.lookup i).getD []

/-! ## 1. Matching -/

/-- What `p*` can leave of a text, the longest match first. -/
def manyRests (p : α → Bool) : List α → List (List α)
  | [] => [[]]
  | x :: s => if p x then manyRests p s ++ [x :: s] else [x :: s]

/-- The matches at the front of a text, in order of preference. -/
def results : Regex α → List α → Captures α → List (List α × Captures α)
  | .empty, s, c => [(s, c)]
  | .one _, [], _ => []
  | .one p, x :: s, c => if p x then [(s, c)] else []
  | .many p, s, c => (manyRests p s).map fun rest => (rest, c)
  | .opt r, s, c => results r s c ++ [(s, c)]
  | .group i r, s, c => (results r s c).map fun m => (m.1, (i, s.take (s.length - m.1.length)) :: m.2)
  | .seq r t, s, c => (results r s c).flatMap fun m => results t m.1 m.2

/-- The match at the front of a text. -/
def prefixMatch (r : Regex α) (s : List α) : Option (List α × Captures α) := (results r s []).head?

/-- The whole text matches (`regex_match`). -/
def isMatch (r : Regex α) (s : List α) : Bool := (results r s []).any fun m => m.1.isEmpty

/-- The groups of the leftmost match (`regex_search`). -/
def search (r : Regex α) : List α → Option (Captures α)
  | [] => (prefixMatch r []).map Prod.snd
  | x :: s => (prefixMatch r (x :: s)).elim (search r s) fun m => some m.2

/-- The text behind its first `k` characters, its matches replaced by their groups. The expression
    is one that does not match the empty text. -/
def scan (r : Regex α) : Nat → List α → List (α ⊕ Captures α)
  | _, [] => []
  | k + 1, _ :: s => scan r k s
  | 0, x :: s =>
      match prefixMatch r (x :: s) with
      | some (rest, c) => .inr c :: scan r (s.length - rest.length) s
      | none => .inl x :: scan r 0 s

/-- The groups of the matches in a text (`regex_iterator`). -/
def matchesIn (r : Regex α) (s : List α) : List (Captures α) := (scan r 0 s).filterMap Sum.getRight?

/-- The text with its matches replaced by `fmt` (`regex_replace`). -/
def replace (r : Regex α) (fmt s : List α) : List α :=
  (scan r 0 s).flatMap (Sum.elim (fun x => [x]) fun _ => fmt)

/-! ## 2. The preferred match -/

/-- What the matcher finds first. -/
def Prefers (r : Regex α) (s : List α) (c : Captures α) (m : List α × Captures α) : Prop :=
  (results r s c).head? = some m

variable {r t : Regex α} {s u rest : List α} {c c' : Captures α} {m m' : List α × Captures α}
  {p : α → Bool}

theorem prefers_empty : Prefers .empty s c (s, c) := rfl

theorem prefers_one {x : α} (hx : p x = true) : Prefers (.one p) (x :: s) c (s, c) := by
  simp [Prefers, results, hx]

theorem head_manyRests (hu : ∀ x ∈ u, p x = true) (hr : ∀ x ∈ rest.head?, p x = false) :
    (manyRests p (u ++ rest)).head? = some rest := by
  induction u with
  | nil =>
      cases rest with
      | nil => rfl
      | cons x rest =>
          have hx : p x = false := hr x rfl
          simp [manyRests, hx]
  | cons x u ih =>
      obtain ⟨hx, hu⟩ := List.forall_mem_cons.mp hu
      simp only [List.cons_append, manyRests, hx, if_true, List.head?_append, ih hu, Option.some_or]

/-- A star takes all characters of its class. -/
theorem prefers_many (hu : ∀ x ∈ u, p x = true) (hr : ∀ x ∈ rest.head?, p x = false) :
    Prefers (.many p) (u ++ rest) c (rest, c) := by
  simp [Prefers, results, head_manyRests hu hr]

theorem prefers_opt (h : Prefers r s c m) : Prefers (.opt r) s c m := by
  rw [Prefers, results, List.head?_append, show (results r s c).head? = some m from h, Option.some_or]

/-- An option is passed over where it cannot be taken. -/
theorem prefers_opt_none (h : results r s c = []) : Prefers (.opt r) s c (s, c) := by
  rw [Prefers, results, h]
  rfl

theorem prefers_group {i : Nat} (h : Prefers r (u ++ rest) c (rest, c')) :
    Prefers (.group i r) (u ++ rest) c (rest, (i, u) :: c') := by
  rw [Prefers, results, List.head?_map, show (results r (u ++ rest) c).head? = some (rest, c') from h]
  simp

theorem prefers_seq (h : Prefers r s c m) (h' : Prefers t m.1 m.2 m') :
    Prefers (.seq r t) s c m' := by
  obtain ⟨l, hl⟩ := List.head?_eq_some_iff.mp h
  rw [Prefers, results, hl, List.flatMap_cons, List.head?_append,
    show (results t m.1 m.2).head? = some m' from h', Option.some_or]

/-- The match that leaves nothing is one of the whole text. -/
theorem isMatch_of_prefers (h : Prefers r s [] ([], c)) : isMatch r s = true := by
  rw [isMatch, List.any_eq_true]
  exact ⟨_, List.mem_of_head? h, rfl⟩

/-- A match at the front is the leftmost one. -/
theorem search_of_prefers (h : Prefers r s [] m) : search r s = some m.2 := by
  have hp : prefixMatch r s = some m := h
  cases s with
  | nil => rw [search, hp, Option.map_some]
  | cons x s => rw [search, hp, Option.elim_some]

/-! ## 3. The texts of an expression -/

/-- The text is one of the expression. -/
inductive Takes : Regex α → List α → Prop where
  | empty : Takes .empty []
  | one {p : α → Bool} {x : α} (h : p x = true) : Takes (.one p) [x]
  | many {p : α → Bool} {u : List α} (h : ∀ x ∈ u, p x = true) : Takes (.many p) u
  | skip {r : Regex α} : Takes (.opt r) []
  | opt {r : Regex α} {u : List α} (h : Takes r u) : Takes (.opt r) u
  | group {r : Regex α} {u : List α} (i : Nat) (h : Takes r u) : Takes (.group i r) u
  | seq {r t : Regex α} {u u' : List α} (h : Takes r u) (h' : Takes t u') : Takes (.seq r t) (u ++ u')

theorem takes_manyRests (hm : rest ∈ manyRests p s) : ∃ u, (∀ x ∈ u, p x = true) ∧ s = u ++ rest := by
  induction s with
  | nil =>
      obtain rfl := List.mem_singleton.mp hm
      exact ⟨[], by simp, rfl⟩
  | cons x s ih =>
      have hstop : rest = x :: s → ∃ u, (∀ x ∈ u, p x = true) ∧ x :: s = u ++ rest := by
        rintro rfl
        exact ⟨[], by simp, rfl⟩
      rw [manyRests] at hm
      split at hm
      · rename_i hx
        rcases List.mem_append.mp hm with hm | hm
        · obtain ⟨u, hu, rfl⟩ := ih hm
          exact ⟨x :: u, List.forall_mem_cons.mpr ⟨hx, hu⟩, rfl⟩
        · exact hstop (List.mem_singleton.mp hm)
      · exact hstop (List.mem_singleton.mp hm)

/-- What a match takes is a text of the expression. -/
theorem takes_of_mem_results (hm : m ∈ results r s c) : ∃ u, Takes r u ∧ s = u ++ m.1 := by
  induction r generalizing s c m with
  | empty =>
      obtain rfl := List.mem_singleton.mp hm
      exact ⟨[], .empty, rfl⟩
  | one p =>
      cases s with
      | nil => cases hm
      | cons x s =>
          rw [results] at hm
          split at hm
          · rename_i hx
            obtain rfl := List.mem_singleton.mp hm
            exact ⟨[x], .one hx, rfl⟩
          · cases hm
  | many p =>
      obtain ⟨rest, hrest, rfl⟩ := List.mem_map.mp hm
      obtain ⟨u, hu, rfl⟩ := takes_manyRests hrest
      exact ⟨u, .many hu, rfl⟩
  | opt r ih =>
      rcases List.mem_append.mp hm with hm | hm
      · obtain ⟨u, hu, rfl⟩ := ih hm
        exact ⟨u, .opt hu, rfl⟩
      · obtain rfl := List.mem_singleton.mp hm
        exact ⟨[], .skip, rfl⟩
  | group i r ih =>
      obtain ⟨m', hm', rfl⟩ := List.mem_map.mp hm
      obtain ⟨u, hu, hs⟩ := ih hm'
      exact ⟨u, .group i hu, hs⟩
  | seq r t ih ih' =>
      obtain ⟨m', hm', hlast⟩ := List.mem_flatMap.mp hm
      obtain ⟨u, hu, rfl⟩ := ih hm'
      obtain ⟨u', hu', hrest⟩ := ih' hlast
      exact ⟨u ++ u', .seq hu hu', by rw [hrest, List.append_assoc]⟩

theorem takes_of_isMatch (h : isMatch r s = true) : Takes r s := by
  obtain ⟨m, hmem, hempty⟩ := List.any_eq_true.mp h
  obtain ⟨u, hu, rfl⟩ := takes_of_mem_results hmem
  rw [List.isEmpty_iff.mp hempty, List.append_nil]
  exact hu

/-! ## 4. What the texts of an expression have in common -/

/-- Every text of the expression has the characters `w` of the kind `q`, in this order. -/
inductive Spells (q : α → Bool) : Regex α → List α → Prop where
  | empty : Spells q .empty []
  | one {p : α → Bool} {w : List α} (h : ∀ x, p x = true → [x].filter q = w) : Spells q (.one p) w
  | many {p : α → Bool} (h : ∀ x, p x = true → q x = false) : Spells q (.many p) []
  | opt {r : Regex α} (h : Spells q r []) : Spells q (.opt r) []
  | group {r : Regex α} {w : List α} (i : Nat) (h : Spells q r w) : Spells q (.group i r) w
  | seq {r t : Regex α} {w w' : List α} (h : Spells q r w) (h' : Spells q t w') :
      Spells q (.seq r t) (w ++ w')

variable {q : α → Bool} {w : List α}

theorem filter_manyRests (h : ∀ x, p x = true → q x = false) (hm : rest ∈ manyRests p s) :
    s.filter q = rest.filter q := by
  induction s with
  | nil =>
      obtain rfl := List.mem_singleton.mp hm
      rfl
  | cons x s ih =>
      rw [manyRests] at hm
      split at hm
      · rename_i hx
        rcases List.mem_append.mp hm with hm | hm
        · rw [List.filter_cons_of_neg (by simp [h x hx]), ih hm]
        · rw [List.mem_singleton.mp hm]
      · rw [List.mem_singleton.mp hm]

/-- What a match takes of a text has the characters the expression spells. -/
theorem filter_of_mem_results (h : Spells q r w) (hm : m ∈ results r s c) :
    s.filter q = w ++ m.1.filter q := by
  induction h generalizing s c m with
  | empty =>
      obtain rfl := List.mem_singleton.mp hm
      rfl
  | one hp =>
      cases s with
      | nil => cases hm
      | cons x s =>
          rw [results] at hm
          split at hm
          · rename_i hx
            obtain rfl := List.mem_singleton.mp hm
            rw [← hp x hx, ← List.filter_append]
            rfl
          · cases hm
  | many hp =>
      obtain ⟨rest, hrest, rfl⟩ := List.mem_map.mp hm
      exact filter_manyRests hp hrest
  | opt _ ih =>
      rcases List.mem_append.mp hm with hm | hm
      · exact ih hm
      · obtain rfl := List.mem_singleton.mp hm
        rfl
  | group i _ ih =>
      obtain ⟨m', hm', rfl⟩ := List.mem_map.mp hm
      have hfilter := ih hm'
      exact hfilter
  | seq _ _ ih ih' =>
      obtain ⟨m', hm', hm⟩ := List.mem_flatMap.mp hm
      rw [ih hm', ih' hm, List.append_assoc]

/-- A text that matches as a whole. -/
theorem filter_of_isMatch (h : Spells q r w) (hm : isMatch r s = true) : s.filter q = w := by
  obtain ⟨m, hmem, hempty⟩ := List.any_eq_true.mp hm
  have hfilter := filter_of_mem_results h hmem
  rw [List.isEmpty_iff.mp hempty] at hfilter
  simpa using hfilter

/-! ## 5. Scanning -/

theorem scan_cons_none {x : α} (h : prefixMatch r (x :: s) = none) :
    scan r 0 (x :: s) = .inl x :: scan r 0 s := by
  simp only [scan, h]

theorem scan_skip (u s : List α) : scan r u.length (u ++ s) = scan r 0 s := by
  induction u with
  | nil => rfl
  | cons x u ih => simpa [scan] using ih

/-- A match in the text. -/
theorem scan_cons_some {x : α} (h : prefixMatch r (x :: (u ++ rest)) = some (rest, c)) :
    scan r 0 (x :: (u ++ rest)) = .inr c :: scan r 0 rest := by
  have hlen : (u ++ rest).length - rest.length = u.length := by
    rw [List.length_append]
    omega
  simp only [scan, h, hlen, scan_skip]

/-! ## 6. Syntax -/

def isLetter (c : UInt8) : Bool := (65 ≤ c && c ≤ 90) || (97 ≤ c && c ≤ 122)

/-- `\w` in the C locale. -/
def isWord (c : UInt8) : Bool := isLetter c || isDigit c || c == 95

/-- The characters that stand for something else than themselves. -/
def special : Bytes := ascii ".[]\x7b\x7d()\\*+?|^$"

/-- Pieces in a row, the last one first. -/
def joined (pieces : List (Regex α)) : Regex α := pieces.foldl (fun r piece => .seq piece r) .empty

/-- How far the reader of an expression is: the pieces of the part it is in, the last one first, the
    open groups around it, and how many groups there have been. -/
structure ParseState where
  pieces : List (Regex UInt8) := []
  outer : List (Nat × List (Regex UInt8)) := []
  groups : Nat := 0
  escaped : Bool := false

/-- One character of an expression. Sets, alternatives, other repetitions than `*` of a single
    character and a greedy `?`, and other escapes than `\d` and `\w` are left out: they are refused. -/
def parseStep (st : ParseState) (c : UInt8) : Option ParseState :=
  if st.escaped then
    if c = 100 then some { st with pieces := .one isDigit :: st.pieces, escaped := false }
    else if c = 119 then some { st with pieces := .one isWord :: st.pieces, escaped := false }
    else none
  else if c ∉ special then some { st with pieces := .one (· == c) :: st.pieces }
  else if c = 92 then some { st with escaped := true }
  else if c = 40 then
    some { pieces := [], outer := (st.groups + 1, st.pieces) :: st.outer, groups := st.groups + 1 }
  else if c = 41 then
    match st.outer with
    | [] => none
    | (i, pieces) :: outer =>
        some { pieces := .group i (joined st.pieces) :: pieces, outer := outer, groups := st.groups }
  else if c = 42 then
    match st.pieces with
    | .one p :: pieces => some { st with pieces := .many p :: pieces }
    | _ => none
  else if c = 63 then
    match st.pieces with
    | .one p :: pieces => some { st with pieces := .opt (.one p) :: pieces }
    | .group i r :: pieces => some { st with pieces := .opt (.group i r) :: pieces }
    | _ => none
  else none

/-- The expression a text stands for, with the number of its groups. -/
def parse (text : Bytes) : Option (Regex UInt8 × Nat) := do
  let st ← text.foldlM parseStep {}
  if st.outer.isEmpty ∧ st.escaped = false then some (joined st.pieces, st.groups) else none

/-- A character that stands for itself. -/
theorem parseStep_literal {st : ParseState} {x : UInt8} (he : st.escaped = false)
    (hx : x ∉ special) : parseStep st x = some { st with pieces := .one (· == x) :: st.pieces } := by
  rw [parseStep, he, if_neg Bool.false_ne_true, if_pos hx]

end Regex

end Lib
