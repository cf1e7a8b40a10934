import Domoio.Routes

/-
  File:      Domoio/Routing.lean
  Subject:   Routes written from templates: their expressions, the URLs built from them, and what is
             taken out of these again.

  A template is the text, the slashes and the parameters of a route. `new_template` says which
  expression `route_to_expression` makes of it. On a URL with every slash written, each greedy choice
  of this expression is the right one (`prefers_url`), so the search finds the whole URL and the groups
  hold the digits. No choice concerns a letter, so the URLs of a route have the letters of its text
  (`Spells`); those of the API's routes differ.
-/

namespace Domoio

open Lib

namespace Httpd

/-! ## 1. Templates -/

/-- A piece of a route. -/
inductive Segment where
  | text (c : UInt8)
  | optSlash
  | param (name : Bytes)
  | optParam (name : Bytes)
  deriving DecidableEq

/-- The literal text: letters, `_` and `/`. -/
def isTextChar (c : UInt8) : Bool := Regex.isLetter c || c == 95 || c == 47

/-- A digit string. -/
abbrev Digits := { b : Bytes // ∀ c ∈ b, isDigit c = true }

namespace Segment

/-- How the piece is written in a route. -/
def route : Segment → Bytes
  | text c => [c]
  | optSlash => [47, 63]
  | param n => 58 :: n
  | optParam n => 58 :: n ++ [63]

def name : Segment → Option Bytes
  | param n | optParam n => some n
  | text _ | optSlash => none

def isSlash : Segment → Bool
  | text c => c == 47
  | optSlash => true
  | param _ | optParam _ => false

/-- What the piece becomes in a URL: a slash is written, a parameter is its digits. -/
def url (digits : Bytes → Digits) : Segment → Bytes
  | text c => [c]
  | optSlash => [47]
  | param n | optParam n => (digits n).val

end Segment

namespace Segment

/-- The piece's text or name has the characters it may have. -/
def wellFormed : Segment → Bool
  | text c => isTextChar c
  | optSlash => true
  | param n | optParam n => n.all isNameChar

/-- Of the pieces up to the next slash none is a parameter. -/
def apart (rest : List Segment) : Bool :=
  (rest.takeWhile fun s => !s.isSlash).all fun s => s.name.isNone

/-- What may stand behind a piece: behind `:name` a slash or nothing, and before the next parameter
    a slash. -/
def followed (rest : List Segment) : Segment → Bool
  | param _ => rest.head?.all isSlash && apart rest
  | optParam _ => apart rest
  | text _ | optSlash => true

end Segment

/-- Every piece has behind it what may stand there. -/
def separated : List Segment → Bool
  | [] => true
  | s :: rest => s.followed rest && separated rest

/-- A route of text, slashes and parameters. -/
structure Template where
  segments : List Segment
  wellFormed : ∀ s ∈ segments, s.wellFormed = true
  distinct : (segments.filterMap Segment.name).Nodup
  separated : separated segments = true

namespace Template

def route (t : Template) : Bytes := t.segments.flatMap Segment.route

def paramNames (t : Template) : List Bytes := t.segments.filterMap Segment.name

/-- The URL with every slash written and the digits put in. -/
def url (t : Template) (digits : Bytes → Digits) : Bytes := t.segments.flatMap (Segment.url digits)

/-- The template without its first piece. -/
def tail (t : Template) (s : Segment) (rest : List Segment) (h : t.segments = s :: rest) :
    Template where
  segments := rest
  wellFormed s' hs' := t.wellFormed s' (h ▸ List.mem_cons_of_mem s hs')
  distinct := t.distinct.sublist ((h ▸ List.sublist_cons_self s rest).filterMap _)
  separated := (Bool.and_eq_true_iff.mp (h ▸ t.separated)).2

theorem head_wellFormed {t : Template} {s : Segment} {rest : List Segment}
    (h : t.segments = s :: rest) : s.wellFormed = true := t.wellFormed s (h ▸ List.mem_cons_self)

theorem head_followed {t : Template} {s : Segment} {rest : List Segment}
    (h : t.segments = s :: rest) : s.followed rest = true :=
  (Bool.and_eq_true_iff.mp (h ▸ t.separated)).1

/-- What is proved of the template without pieces, and of a template where it holds of the rest,
    holds of every template. -/
theorem induction {P : List Segment → Prop} (h0 : P [])
    (hstep : ∀ (t : Template) s rest, t.segments = s :: rest → P rest → P t.segments)
    (t : Template) : P t.segments := by
  obtain ⟨segments, hsegments⟩ : ∃ l, l = t.segments := ⟨_, rfl⟩
  induction segments generalizing t with
  | nil =>
      rw [← hsegments]
      exact h0
  | cons s rest ih => exact hstep t s rest hsegments.symm (ih (t.tail s rest hsegments.symm) rfl)

end Template

/-! ## 2. The expression of a template -/

theorem prefixMatch_other {x : UInt8} (hx : x ≠ 58) (s : Bytes) :
    paramNameRegexp.prefixMatch (x :: s) = none := by
  simp [Regex.prefixMatch, paramNameRegexp, Regex.results, hx]

/-- A colon and the name behind it. -/
theorem prefixMatch_param {n rest : Bytes} (hn : ∀ c ∈ n, isNameChar c = true)
    (hr : ∀ c ∈ rest.head?, isNameChar c = false) :
    paramNameRegexp.prefixMatch (58 :: (n ++ rest)) = some (rest, [(1, n)]) :=
  Regex.prefers_seq (Regex.prefers_one (by rfl)) (Regex.prefers_group (Regex.prefers_many hn hr))

theorem ne_colon_of_isTextChar : ∀ {c : UInt8}, isTextChar c = true → c ≠ 58 := by
  rintro c hc rfl
  cases hc

namespace Segment

/-- What scanning a route for names makes of a piece. -/
def scanned : Segment → List (UInt8 ⊕ Regex.Captures UInt8)
  | text c => [.inl c]
  | optSlash => [.inl 47, .inl 63]
  | param n => [.inr [(1, n)]]
  | optParam n => [.inr [(1, n)], .inl 63]

/-- What `regex_replace` makes of a piece. -/
def expression : Segment → Bytes
  | text c => [c]
  | optSlash => [47, 63]
  | param _ => paramValueRegexp
  | optParam _ => paramValueRegexp ++ [63]

/-- The piece's expression, where there are `i` groups before it. -/
def regexp (i : Nat) : Segment → Regex UInt8
  | text c => .one (· == c)
  | optSlash => .opt (.one (· == 47))
  | param _ => .group (i + 1) (Regex.joined [.many isDigit])
  | optParam _ => .opt (.group (i + 1) (Regex.joined [.many isDigit]))

/-- How many groups it has. -/
def groups (s : Segment) : Nat := s.name.toList.length

end Segment

/-- The head of a route's rest behind a parameter's name. -/
theorem head_route_not_nameChar {t : Template} {n : Bytes} {rest : List Segment}
    (h : t.segments = .param n :: rest) :
    ∀ c ∈ (rest.flatMap Segment.route).head?, isNameChar c = false := by
  intro c hc
  cases rest with
  | nil => cases hc
  | cons s rest =>
      have hslash : s.isSlash = true := (Bool.and_eq_true_iff.mp (Template.head_followed h)).1
      cases s with
      | text x =>
          have hx : x = 47 := by simpa [Segment.isSlash] using hslash
          have hcx : x = c := by simpa [Segment.route] using hc
          rw [← hcx, hx]
          rfl
      | optSlash =>
          have hcx : 47 = c := by simpa [Segment.route] using hc
          rw [← hcx]
          rfl
      | param | optParam => cases hslash

/-- Scanning a template's route for names. -/
theorem scan_route (t : Template) :
    paramNameRegexp.scan 0 (t.segments.flatMap Segment.route) =
      t.segments.flatMap Segment.scanned := by
  refine t.induction (P := fun l => paramNameRegexp.scan 0 (l.flatMap Segment.route) =
    l.flatMap Segment.scanned) rfl ?_
  intro t s rest h ih
  rw [h, List.flatMap_cons, List.flatMap_cons, ← ih]
  cases s with
  | text c =>
      have hc : isTextChar c = true := Template.head_wellFormed h
      exact Regex.scan_cons_none (prefixMatch_other (ne_colon_of_isTextChar hc) _)
  | optSlash =>
      refine (Regex.scan_cons_none (prefixMatch_other (by decide) _)).trans (congrArg _ ?_)
      exact Regex.scan_cons_none (prefixMatch_other (by decide) _)
  | param n =>
      have hn := List.all_eq_true.mp (Template.head_wellFormed h)
      exact Regex.scan_cons_some (prefixMatch_param hn (head_route_not_nameChar h))
  | optParam n =>
      have hn := List.all_eq_true.mp (Template.head_wellFormed h)
      have hmark : ∀ c ∈ (63 :: rest.flatMap Segment.route).head?, isNameChar c = false := by
        intro c hc
        cases hc
        rfl
      have hroute : (Segment.optParam n).route ++ rest.flatMap Segment.route =
          58 :: (n ++ 63 :: rest.flatMap Segment.route) := by simp [Segment.route]
      rw [hroute]
      refine (Regex.scan_cons_some (prefixMatch_param hn hmark)).trans (congrArg _ ?_)
      exact Regex.scan_cons_none (prefixMatch_other (by decide) _)

/-- The names of the parameters, in order. -/
theorem matchesIn_route (t : Template) :
    (paramNameRegexp.matchesIn t.route).map (fun what => Regex.caught what 1) = t.paramNames := by
  rw [Regex.matchesIn, Template.route, scan_route, Template.paramNames]
  induction t.segments with
  | nil => rfl
  | cons s rest ih =>
      rw [List.flatMap_cons, List.filterMap_append, List.map_append, ih, List.filterMap_cons]
      cases s <;> rfl

/-- The text of the expression. -/
theorem replace_route (t : Template) :
    paramNameRegexp.replace paramValueRegexp t.route = t.segments.flatMap Segment.expression := by
  rw [Regex.replace, Template.route, scan_route]
  induction t.segments with
  | nil => rfl
  | cons s rest ih =>
      rw [List.flatMap_cons, List.flatMap_append, ih, List.flatMap_cons]
      cases s <;> rfl

/-- The expressions of the pieces, where there are `i` groups before them. -/
def pieces : Nat → List Segment → List (Regex UInt8)
  | _, [] => []
  | i, s :: rest => s.regexp i :: pieces (i + s.groups) rest

/-- How many groups pieces have. -/
def groupCount (l : List Segment) : Nat := (l.filterMap Segment.name).length

theorem groupCount_cons (s : Segment) (l : List Segment) :
    groupCount (s :: l) = s.groups + groupCount l := by
  cases s with
  | text | optSlash => exact (Nat.zero_add _).symm
  | param | optParam => exact Nat.add_comm _ 1

theorem isDigit_of_isTextChar {c : UInt8} (hc : isTextChar c = true) : isDigit c = false := by
  by_contra hdigit
  simp only [Bool.not_eq_false, isDigit, Bool.and_eq_true, decide_eq_true_eq,
    UInt8.le_iff_toNat_le, UInt8.reduceToNat] at hdigit
  simp only [isTextChar, Regex.isLetter, Bool.or_eq_true, Bool.and_eq_true, decide_eq_true_eq,
    beq_iff_eq, UInt8.le_iff_toNat_le, ← UInt8.toNat_inj, UInt8.reduceToNat] at hc
  omega

set_option maxRecDepth 2000 in
theorem not_special_of_isTextChar {c : UInt8} (hc : isTextChar c = true) : c ∉ Regex.special := by
  have hspecial : ∀ x ∈ Regex.special, isTextChar x = false := by decide
  intro hmem
  rw [hspecial c hmem] at hc
  cases hc

/-- Reading the expression of a piece. -/
theorem foldlM_expression {s : Segment} (hs : s.wellFormed = true)
    (pieces : List (Regex UInt8)) (outer : List (Nat × List (Regex UInt8))) (i : Nat) :
    s.expression.foldlM Regex.parseStep ⟨pieces, outer, i, false⟩ =
      some ⟨s.regexp i :: pieces, outer, i + s.groups, false⟩ := by
  cases s with
  | text c =>
      have hc := not_special_of_isTextChar hs
      rw [Segment.expression, List.foldlM_cons, Regex.parseStep_literal rfl hc]
      rfl
  | optSlash => rfl
  | param n => rfl
  | optParam n => rfl

theorem foldlM_segments (t : Template) : ∀ (before : List (Regex UInt8))
    (outer : List (Nat × List (Regex UInt8))) (i : Nat),
    (t.segments.flatMap Segment.expression).foldlM Regex.parseStep ⟨before, outer, i, false⟩ =
      some ⟨(pieces i t.segments).reverse ++ before, outer, i + groupCount t.segments, false⟩ := by
  refine t.induction (P := fun l => ∀ before outer i,
    (l.flatMap Segment.expression).foldlM Regex.parseStep ⟨before, outer, i, false⟩ =
      some ⟨(pieces i l).reverse ++ before, outer, i + groupCount l, false⟩)
    (fun _ _ _ => rfl) ?_
  intro t s rest h ih before outer i
  rw [h, List.flatMap_cons, List.foldlM_append, foldlM_expression (Template.head_wellFormed h),
    Option.bind_eq_bind, Option.bind_some, ih, groupCount_cons, ← Nat.add_assoc]
  simp [pieces]

/-- The expression of a template. -/
def Template.regexp (t : Template) : Regex UInt8 := (pieces 0 t.segments).foldr .seq .empty

/-- The action of a template's route. -/
def Template.action {κ : Type} (t : Template) (callback : κ) : HttpdAction κ where
  route := t.route
  callback := callback
  regexp := t.regexp
  markCount := t.paramNames.length
  paramsIndex := t.paramNames

theorem new_template {κ : Type} (t : Template) (callback : κ) :
    HttpdAction.new t.route callback = some (t.action callback) := by
  have hparse : Regex.parse (t.segments.flatMap Segment.expression) =
      some (t.regexp, t.paramNames.length) := by
    have hjoined : Regex.joined (pieces 0 t.segments).reverse = t.regexp := by
      rw [Regex.joined, List.foldl_reverse]
      rfl
    rw [Regex.parse, foldlM_segments t [] [] 0]
    simp [hjoined, groupCount, Template.paramNames]
  rw [HttpdAction.new, matchesIn_route, replace_route, hparse]
  rfl

/-! ## 3. URLs built from a template -/

variable {digits : Bytes → Digits}

/-- What the groups have caught behind the pieces, where there are `i` groups before them. -/
def captured (digits : Bytes → Digits) :
    Nat → List Segment → Regex.Captures UInt8 → Regex.Captures UInt8
  | _, [], c => c
  | i, s :: rest, c => captured digits (i + s.groups) rest
      (s.name.elim c fun n => (i + 1, (digits n).val) :: c)

theorem apart_of_followed {s : Segment} {rest : List Segment} (h : s.followed rest = true)
    (hs : s.name.isSome) : Segment.apart rest = true := by
  cases s with
  | text | optSlash => cases hs
  | param n => exact (Bool.and_eq_true_iff.mp h).2
  | optParam n => exact h

/-- Behind a parameter the URL does not go on with a digit. -/
theorem head_url_not_digit {t : Template} {s : Segment} {rest : List Segment}
    (h : t.segments = s :: rest) (hs : s.name.isSome) :
    ∀ c ∈ (rest.flatMap (Segment.url digits)).head?, isDigit c = false := by
  intro c hc
  cases rest with
  | nil => cases hc
  | cons b rest =>
      have hb : b.wellFormed = true := t.wellFormed b (h ▸ List.mem_cons_of_mem s List.mem_cons_self)
      have hparam : b.name.isSome → b.isSlash = true := by
        intro hname
        by_contra hslash
        have hapart := apart_of_followed (Template.head_followed h) hs
        rw [Segment.apart, List.takeWhile_cons_of_pos (by simpa using hslash), List.all_cons,
          Bool.and_eq_true, Option.isNone_iff_eq_none] at hapart
        rw [hapart.1] at hname
        cases hname
      cases b with
      | text x =>
          have hcx : x = c := by simpa [Segment.url] using hc
          rw [← hcx]
          exact isDigit_of_isTextChar hb
      | optSlash =>
          have hcx : 47 = c := by simpa [Segment.url] using hc
          rw [← hcx]
          rfl
      | param | optParam => cases hparam rfl

/-- On the URL of a template the matcher's first choices are right: nothing is left, and the groups
    have the digits. -/
theorem prefers_url (digits : Bytes → Digits) (t : Template) : ∀ (i : Nat)
    (c : Regex.Captures UInt8), Regex.Prefers ((pieces i t.segments).foldr .seq .empty)
      (t.segments.flatMap (Segment.url digits)) c ([], captured digits i t.segments c) := by
  refine t.induction (P := fun l => ∀ (i : Nat) (c : Regex.Captures UInt8),
    Regex.Prefers ((pieces i l).foldr .seq .empty) (l.flatMap (Segment.url digits)) c
      ([], captured digits i l c)) (fun _ _ => Regex.prefers_empty) ?_
  intro t s rest h ih i c
  rw [h, List.flatMap_cons]
  refine Regex.prefers_seq (m := (rest.flatMap (Segment.url digits),
    s.name.elim c fun n => (i + 1, (digits n).val) :: c)) ?_ (ih (i + s.groups) _)
  have hgroup : ∀ n, s.name = some n → Regex.Prefers
      (.group (i + 1) (Regex.joined [.many isDigit]))
      ((digits n).val ++ rest.flatMap (Segment.url digits)) c
      (rest.flatMap (Segment.url digits), (i + 1, (digits n).val) :: c) := by
    intro n hn
    have hend : ∀ c ∈ (rest.flatMap (Segment.url digits)).head?, isDigit c = false :=
      head_url_not_digit h (by rw [hn]; rfl)
    exact Regex.prefers_group
      (Regex.prefers_seq (Regex.prefers_many (digits n).property hend) Regex.prefers_empty)
  cases s with
  | text x => exact Regex.prefers_one (beq_self_eq_true x)
  | optSlash => exact Regex.prefers_opt (Regex.prefers_one (beq_self_eq_true 47))
  | param n => exact hgroup n rfl
  | optParam n => exact Regex.prefers_opt (hgroup n rfl)

/-- Later groups do not change what an earlier one has caught. -/
theorem caught_captured_le {l : List Segment} {i j : Nat} (hj : j ≤ i) (c : Regex.Captures UInt8) :
    Regex.caught (captured digits i l c) j = Regex.caught c j := by
  induction l generalizing i c with
  | nil => rfl
  | cons s rest ih =>
      rw [captured, ih (by omega)]
      cases hn : s.name with
      | none => rfl
      | some n =>
          have hne : (j == i + 1) = false := by simp; omega
          simp [Regex.caught, List.lookup, hne]

/-- The groups hold the digits of the parameters in order. -/
theorem caught_captured {l : List Segment} {i j : Nat} {n : Bytes}
    (hn : (l.filterMap Segment.name)[j]? = some n) (c : Regex.Captures UInt8) :
    Regex.caught (captured digits i l c) (i + j + 1) = (digits n).val := by
  induction l generalizing i j c with
  | nil => cases hn
  | cons s rest ih =>
      rw [captured]
      cases hs : s.name with
      | none =>
          rw [List.filterMap_cons_none hs] at hn
          have hgroups : s.groups = 0 := by rw [Segment.groups, hs]; rfl
          rw [hgroups]
          exact ih hn c
      | some m =>
          rw [List.filterMap_cons_some hs] at hn
          have hgroups : s.groups = 1 := by rw [Segment.groups, hs]; rfl
          rw [hgroups, Option.elim_some]
          cases j with
          | zero =>
              obtain rfl : m = n := by simpa using hn
              rw [Nat.add_zero, caught_captured_le (Nat.le_refl (i + 1))]
              simp [Regex.caught]
          | succ j =>
              rw [List.getElem?_cons_succ] at hn
              have hindex : i + (j + 1) + 1 = i + 1 + j + 1 := by omega
              rw [hindex]
              exact ih hn _

/-- Storing under each key what belongs to it: afterwards the keys have what belongs to them. -/
theorem foldl_update {key val : Nat → Bytes} {f : Bytes → Bytes} {n v : Bytes} (l : List Nat)
    (hval : ∀ i ∈ l, key i = n → val i = v) (h : (∃ i ∈ l, key i = n) ∨ f n = v) :
    (l.foldl (fun f i => Function.update f (key i) (val i)) f) n = v := by
  induction l generalizing f with
  | nil =>
      rcases h with ⟨i, hi, -⟩ | h
      · cases hi
      · exact h
  | cons i l ih =>
      obtain ⟨hi, hl⟩ := List.forall_mem_cons.mp hval
      refine ih hl ?_
      by_cases hkey : key i = n
      · have hset : Function.update f (key i) (val i) n = val i := by
          rw [hkey, Function.update_self]
        exact Or.inr (hset.trans (hi hkey))
      · rcases h with ⟨j, hj, hjn⟩ | h
        · rcases List.mem_cons.mp hj with rfl | hj
          · exact absurd hjn hkey
          · exact Or.inl ⟨j, hj, hjn⟩
        · have hother : Function.update f (key i) (val i) n = f n :=
            Function.update_of_ne (Ne.symm hkey) _ _
          exact Or.inr (hother.trans h)

/-- The action of a template puts the digits that were caught under the names of the parameters. -/
theorem params_captured {κ : Type} {t : Template} {url : Bytes} (callback : κ)
    (hsearch : t.regexp.search url = some (captured digits 0 t.segments [])) {n : Bytes}
    (hn : n ∈ t.paramNames) : (t.action callback).params url n = (digits n).val := by
  have hsearch' : (t.action callback).regexp.search url =
      some (captured digits 0 t.segments []) := hsearch
  have hkey : ∀ i ∈ List.range t.paramNames.length, t.paramNames.getD i [] = n →
      Regex.caught (captured digits 0 t.segments []) (i + 1) = (digits n).val := by
    intro i hi hin
    have hget : t.paramNames[i]? = some n := by
      rw [List.getD_eq_getElem _ _ (List.mem_range.mp hi)] at hin
      rw [List.getElem?_eq_getElem (List.mem_range.mp hi), hin]
    have hcaught : Regex.caught (captured digits 0 t.segments []) (0 + i + 1) = (digits n).val :=
      caught_captured hget []
    rw [Nat.zero_add] at hcaught
    exact hcaught
  obtain ⟨i, hi, hin⟩ := List.getElem_of_mem hn
  have hmem : ∃ i ∈ List.range t.paramNames.length, t.paramNames.getD i [] = n :=
    ⟨i, List.mem_range.mpr hi, by rw [List.getD_eq_getElem _ _ hi, hin]⟩
  unfold HttpdAction.params
  rw [hsearch']
  exact foldl_update _ hkey (Or.inl hmem)

/-- The action of a template takes out of its URLs what was put in. -/
theorem params_template {κ : Type} (t : Template) (callback : κ) (digits : Bytes → Digits)
    {n : Bytes} (hn : n ∈ t.paramNames) :
    (t.action callback).params (t.url digits) n = (digits n).val :=
  params_captured callback (Regex.search_of_prefers (prefers_url digits t 0 [])) hn

/-- The URLs of a template match as a whole. -/
theorem isMatch_url (t : Template) (digits : Bytes → Digits) :
    t.regexp.isMatch (t.url digits) = true :=
  Regex.isMatch_of_prefers (prefers_url digits t 0 [])

/-! ## 4. Routes that no URL matches both of -/

/-- The letters of a piece's text. -/
def Segment.letters : Segment → Bytes
  | text c => [c].filter Regex.isLetter
  | optSlash | param _ | optParam _ => []

/-- The letters of a route's text. -/
def Template.letters (t : Template) : Bytes := t.segments.flatMap Segment.letters

theorem isLetter_of_isDigit {c : UInt8} (hc : isDigit c = true) : Regex.isLetter c = false := by
  by_contra hletter
  have htext : isTextChar c = true := by simp [isTextChar, Bool.not_eq_false _ ▸ hletter]
  rw [isDigit_of_isTextChar htext] at hc
  cases hc

theorem spells_segment (s : Segment) (i : Nat) :
    Regex.Spells Regex.isLetter (s.regexp i) s.letters := by
  have hdigits : Regex.Spells Regex.isLetter
      (.group (i + 1) (Regex.joined [.many isDigit])) [] :=
    .group (i + 1) (.seq (.many fun _ hx => isLetter_of_isDigit hx) .empty)
  cases s with
  | text c =>
      refine .one fun x hx => ?_
      rw [beq_iff_eq.mp hx]
      rfl
  | optSlash =>
      refine .opt (.one fun x hx => ?_)
      rw [beq_iff_eq.mp hx]
      rfl
  | param n => exact hdigits
  | optParam n => exact .opt hdigits

theorem spells_pieces (l : List Segment) (i : Nat) :
    Regex.Spells Regex.isLetter ((pieces i l).foldr .seq .empty) (l.flatMap Segment.letters) := by
  induction l generalizing i with
  | nil => exact .empty
  | cons s l ih => exact .seq (spells_segment s i) (ih _)

/-- A URL that matches has the letters of the route. -/
theorem letters_of_isMatch {t : Template} {url : Bytes} (h : t.regexp.isMatch url = true) :
    url.filter Regex.isLetter = t.letters :=
  Regex.filter_of_isMatch (spells_pieces t.segments 0) h

/-- Of routes with different letters at most one matches. -/
theorem length_filter_le_one {l : List Template} (h : (l.map Template.letters).Nodup) (url : Bytes) :
    ((l.map Template.regexp).filter fun r => r.isMatch url).length ≤ 1 := by
  rw [List.filter_map, List.length_map]
  have hnodup : ((l.filter fun t => t.regexp.isMatch url).map Template.letters).Nodup :=
    h.sublist (List.filter_sublist.map _)
  have hsame : ∀ w ∈ (l.filter fun t => t.regexp.isMatch url).map Template.letters,
      w = url.filter Regex.isLetter := by
    intro w hw
    obtain ⟨t, ht, rfl⟩ := List.mem_map.mp hw
    exact (letters_of_isMatch (List.mem_filter.mp ht).2).symm
  rw [List.eq_replicate_of_mem hsame, List.nodup_replicate, List.length_map] at hnodup
  exact hnodup

/-- Where at most one action matches, it is found in whatever order they are. -/
theorem findAction_perm {κ : Type} {actions l : List (HttpdAction κ)} {url : Bytes}
    (hone : ((actions.map HttpdAction.regexp).filter fun r => r.isMatch url).length ≤ 1)
    (hl : l.Perm actions) : findAction l url = findAction actions url := by
  rw [List.filter_map, List.length_map] at hone
  change (actions.filter fun action => action.regexp.isMatch url).length ≤ 1 at hone
  have hfilter := hl.filter fun action => action.regexp.isMatch url
  rw [findAction, findAction, ← List.head?_filter, ← List.head?_filter]
  rcases Nat.le_one_iff_eq_zero_or_eq_one.mp hone with hnone | hsingle
  · rw [List.length_eq_zero_iff.mp hnone] at hfilter ⊢
    rw [hfilter.eq_nil]
  · obtain ⟨action, haction⟩ := List.length_eq_one_iff.mp hsingle
    rw [haction] at hfilter ⊢
    rw [hfilter.eq_singleton]

/-! ## 5. The API's routes -/

/-- Literal text. -/
def texts (s : String) : List Segment := (ascii s).map Segment.text

def eventsTemplate : Template where
  segments := texts "/api/events"
  wellFormed := by decide
  distinct := by decide
  separated := by decide

def devicesTemplate : Template where
  segments := texts "/api/devices" ++ [.optSlash, .optParam (ascii "id")]
  wellFormed := by decide
  distinct := by decide
  separated := by decide

def portsTemplate : Template where
  segments := texts "/api/devices/" ++ .param (ascii "device_id") :: texts "/ports" ++
    [.optSlash, .optParam (ascii "id")]
  wellFormed := by decide
  distinct := by decide
  separated := by decide

def setPortTemplate : Template where
  segments := texts "/api/devices/" ++ .param (ascii "device_id") :: texts "/ports/" ++
    .param (ascii "id") :: texts "/set"
  wellFormed := by decide
  distinct := by decide
  separated := by decide

def usersTemplate : Template where
  segments := texts "/api/users" ++ [.optSlash, .optParam (ascii "id")]
  wellFormed := by decide
  distinct := by decide
  separated := by decide

/-- The actions of the templates. -/
def apiActions : Actions where
  httpd := [devicesTemplate.action .devices, portsTemplate.action .ports,
    setPortTemplate.action .setPort, usersTemplate.action .users]
  websocket := [eventsTemplate.action .events]

/-- The actions of the API are those of the templates. -/
theorem registerHttpdActions_eq : registerHttpdActions = some apiActions := by
  have hevents : ascii "/api/events" = eventsTemplate.route := by decide
  have hdevices : ascii "/api/devices/?:id?" = devicesTemplate.route := by decide
  have hports : ascii "/api/devices/:device_id/ports/?:id?" = portsTemplate.route := by decide
  have hsetPort : ascii "/api/devices/:device_id/ports/:id/set" = setPortTemplate.route := by decide
  have husers : ascii "/api/users/?:id?" = usersTemplate.route := by decide
  rw [registerHttpdActions, hevents, hdevices, hports, hsetPort, husers]
  simp only [new_template]
  rfl

/-- The expressions of a server's actions, those of both kinds. -/
def Actions.regexps (actions : Actions) : List (Regex UInt8) :=
  actions.httpd.map HttpdAction.regexp ++ actions.websocket.map HttpdAction.regexp

/-- At most one of the API's routes matches a URL, so its action is found in whatever order they were
    registered. And a route written from a template gives an action that matches the URLs built from
    the template; where it is the one found, `resolve` calls it with the digits the URL was built
    from under the names of the parameters. -/
theorem routing :
    (∃ actions, registerHttpdActions = some actions ∧ ∀ url,
      (actions.regexps.filter fun r => r.isMatch url).length ≤ 1 ∧
      ∀ l, l.Perm actions.httpd → findAction l url = findAction actions.httpd url) ∧
    ∀ (κ : Type) (t : Template) (callback : κ) (digits : Bytes → Digits), ∃ action,
      HttpdAction.new t.route callback = some action ∧
      action.regexp.isMatch (t.url digits) = true ∧
      (∀ n ∈ t.paramNames, action.params (t.url digits) n = (digits n).val) ∧
      ∀ actions method postDataRaw, findAction actions (t.url digits) = some action →
        ∃ request, resolve actions method (t.url digits) postDataRaw = some (callback, request) ∧
          ∀ name, ascii name ∈ t.paramNames → request.params name = (digits (ascii name)).val := by
  constructor
  · refine ⟨_, registerHttpdActions_eq, fun url => ?_⟩
    have hone := length_filter_le_one (l := [devicesTemplate, portsTemplate, setPortTemplate,
      usersTemplate, eventsTemplate]) (by decide) url
    have hhttpd := length_filter_le_one (l := [devicesTemplate, portsTemplate, setPortTemplate,
      usersTemplate]) (by decide) url
    exact ⟨hone, fun l hl => findAction_perm hhttpd hl⟩
  · intro κ t callback digits
    refine ⟨_, new_template t callback, isMatch_url t digits,
      fun n hn => params_template t callback digits hn, ?_⟩
    intro actions method postDataRaw hfind
    refine ⟨_, by rw [resolve, hfind]; rfl, fun name hname => ?_⟩
    exact params_template t callback digits hname

/-- A route with two parameters, the last one and its slash optional. -/
def fooTemplate : Template where
  segments := texts "/foo/" ++ [.param (ascii "foo_id"), .optSlash, .optParam (ascii "id")]
  wellFormed := by decide
  distinct := by decide
  separated := by decide

/-- The second parameter is left empty. -/
def fooDigits (name : Bytes) : Digits :=
  if name = ascii "foo_id" then ⟨[49, 50], by simp [isDigit]⟩ else ⟨[], by simp⟩

theorem routing_foo : ∃ action,
    HttpdAction.new (ascii "/foo/:foo_id/?:id?") () = some action ∧
      action.regexp.isMatch (ascii "/foo/12/") = true ∧
      ∃ request, resolve [action] .get (ascii "/foo/12/") [] = some ((), request) ∧
        request.params "foo_id" = ascii "12" ∧ request.params "id" = [] := by
  have hroute : fooTemplate.route = ascii "/foo/:foo_id/?:id?" := by decide
  have hurl : fooTemplate.url fooDigits = ascii "/foo/12/" := by decide
  obtain ⟨action, hnew, hmatch, -, hresolve⟩ := routing.2 Unit fooTemplate () fooDigits
  rw [hroute] at hnew
  rw [hurl] at hmatch hresolve
  have hfind : findAction [action] (ascii "/foo/12/") = some action := by
    simp [findAction, hmatch]
  obtain ⟨request, hrequest, hparams⟩ := hresolve [action] .get [] hfind
  refine ⟨action, hnew, hmatch, request, hrequest, ?_, ?_⟩
  · exact (hparams "foo_id" (by decide)).trans (by decide)
  · exact (hparams "id" (by decide)).trans (by decide)

end Httpd

end Domoio
