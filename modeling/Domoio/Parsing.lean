import Domoio.Scanning

/-
  File:      Domoio/Parsing.lean
  Subject:   What the JSON reader takes for documents.

  The parser meets the grammar of elements (`ElementTokens`): members and elements with commas between
  any two, names that differ, numbers an `istringstream` reads to their end. With the scanner's grammar it
  says which texts are read as which documents (`read_iff`), and what every rejection points to.
-/

namespace Domoio.Reader

open Lib Lib.Reading

abbrev Lexeme := TokenType × Bytes

/-! ## 1. The grammar -/

mutual

/-- How an element is written in tokens. -/
inductive ElementTokens (d : Doubles) : Json → List Lexeme → Prop
  | null {v : Bytes} : ElementTokens d .null [(.null, v)]
  | boolean {v : Bytes} : ElementTokens d (.boolean (v = ascii "true")) [(.boolean, v)]
  | number {v : Bytes} {x : Rat} : d.parse v = .ok x → ElementTokens d (.number x) [(.number, v)]
  | string {v : Bytes} : ElementTokens d (.string v) [(.string, v)]
  | array {v v' : Bytes} {es : List Json} {w : List Lexeme} :
      Listed (fun l : Lexeme => l.1 = .nextElement) (ElementTokens d) es w →
      ElementTokens d (.array es) ((.arrayBegin, v) :: w ++ [(.arrayEnd, v')])
  | object {v v' : Bytes} {ms : Object} {w : List Lexeme} :
      Listed (fun l : Lexeme => l.1 = .nextElement) (MemberTokens d) ms w →
      (ms.map Prod.fst).Nodup →
      ElementTokens d (.object ms) ((.objectBegin, v) :: w ++ [(.objectEnd, v')])

/-- How a member is written in tokens. -/
inductive MemberTokens (d : Doubles) : String × Json → List Lexeme → Prop
  | mk {n v : Bytes} {e : Json} {w : List Lexeme} : ElementTokens d e w →
      MemberTokens d (nameOf n, e) ((.string, n) :: (.memberAssign, v) :: w)

end

/-! ## 2. The parser meets it -/

/-- The stream stands in the tokens. -/
def StreamIn (tokens : List Token) (s : TokenStream) : Prop :=
  s.behind = tokens ∧ s.rest <:+ tokens

/-- An exception of the parser points to a token, if there is one. -/
def ParseFault (tokens : List Token) (e : ReadException) : Prop :=
  (∃ token ∈ tokens, ∃ m, e = .parse m token.locBegin token.locEnd) ∨ tokens = [] ∧ e = .emptyTokens

section Parser

variable {tokens : List Token} {I : TokenStream → Prop}

theorem kept_streamIn (tokens : List Token) : Kept sameTokens (StreamIn tokens) := by
  rintro s w t ⟨hbehind, hrest⟩ hw
  refine ⟨?_, (hw.rest ▸ List.suffix_append w t.rest).trans hrest⟩
  rw [hw.behind, hbehind]
  exact List.foldl_fixed' (fun _ => rfl) w

/-- The stream stands in the tokens, with less left than the fuel. -/
def FueledIn (tokens : List Token) (fuel : Nat) (s : TokenStream) : Prop :=
  StreamIn tokens s ∧ s.rest.length < fuel

theorem kept_fueledIn (tokens : List Token) (fuel : Nat) : Kept sameTokens (FueledIn tokens fuel) := by
  rintro s w t ⟨hs, hfuel⟩ hw
  have hlength := hw.length
  exact ⟨kept_streamIn tokens hs hw, by omega⟩

/-- A failure that points to a token still to be read. -/
theorem StreamIn.fault {s : TokenStream} (hs : StreamIn tokens s) {token : Token}
    (htoken : token ∈ s.rest) (m : Bytes) :
    ParseFault tokens (.parse m token.locBegin token.locEnd) :=
  .inl ⟨token, hs.2.subset htoken, m, rfl⟩

theorem peek_cons {s : TokenStream} {token : Token} {rest : List Token} (h : s.rest = token :: rest) :
    Parse.peek s = .ok (token, s) := by
  unfold Parse.peek
  split
  · rename_i t rest' ht
    cases h.symm.trans ht
    rfl
  · rename_i hnil
    cases h.symm.trans hnil

/-- At the end of the tokens the exception points to the last one. -/
theorem peek_nil {s : TokenStream} (hs : StreamIn tokens s) (h : s.rest = []) :
    ∃ e, Parse.peek s = .error e ∧ ParseFault tokens e := by
  unfold Parse.peek
  split
  · rename_i t rest' ht
    cases h.symm.trans ht
  · rw [hs.1]
    split
    · rename_i lastToken hlast
      exact ⟨_, rfl, .inl ⟨lastToken, List.mem_of_getLast? hlast, _, rfl⟩⟩
    · rename_i hnone
      exact ⟨_, rfl, .inr ⟨List.getLast?_eq_none_iff.mp hnone, rfl⟩⟩

/-- The token peeked is one of the tokens. -/
theorem StreamIn.mem {s : TokenStream} (hs : StreamIn tokens s) {token : Token} {rest : List Token}
    (h : s.rest = token :: rest) : token ∈ tokens :=
  hs.2.subset (h ▸ List.mem_cons_self)

theorem peek_bind {β : Type} {q : Token → Parse β} {R : Token → Grammar (List Token) Token β}
    (hI : ∀ s, I s → StreamIn tokens s)
    (hq : ∀ token ∈ tokens, Meets sameTokens (fun s => I s ∧ s.rest.head? = some token)
      (ParseFault tokens) (q token) (R token)) :
    Meets sameTokens I (ParseFault tokens) (Parse.peek >>= q)
      fun k b w rest => ∃ token, (w ++ rest).head? = some token ∧ R token k b w rest where
  reads s hs b t := by
    rw [bind_ok]
    cases hrest : s.rest with
    | nil =>
        obtain ⟨e, he, -⟩ := peek_nil (hI s hs) hrest
        constructor
        · rintro ⟨_, _, h, -⟩
          cases he.symm.trans h
        · rintro ⟨w, hw, token, hhead, -⟩
          rw [← hw.rest, hrest] at hhead
          cases hhead
    | cons token rest =>
        have hhead : s.rest.head? = some token := by rw [hrest]; rfl
        have hreads := (hq token ((hI s hs).mem hrest)).reads s ⟨hs, hhead⟩ b t
        constructor
        · rintro ⟨_, _, hpeek, h⟩
          cases (peek_cons hrest).symm.trans hpeek
          obtain ⟨w, hw, hR⟩ := hreads.mp h
          exact ⟨w, hw, token, hw.rest ▸ hhead, hR⟩
        · rintro ⟨w, hw, token', hhead', hR⟩
          rw [← hw.rest, hhead] at hhead'
          cases hhead'
          exact ⟨token, s, peek_cons hrest, hreads.mpr ⟨w, hw, hR⟩⟩
  fails s hs e he := by
    cases hrest : s.rest with
    | nil =>
        obtain ⟨e', he', hfault⟩ := peek_nil (hI s hs) hrest
        rcases bind_error.mp he with h | ⟨_, _, h, -⟩
        · cases he'.symm.trans h
          exact hfault
        · cases he'.symm.trans h
    | cons token rest =>
        have hfails := (hq token ((hI s hs).mem hrest)).fails s ⟨hs, by rw [hrest]; rfl⟩ e
        rcases bind_error.mp he with h | ⟨_, _, h, hqe⟩
        · cases (peek_cons hrest).symm.trans h
        · cases (peek_cons hrest).symm.trans h
          exact hfails hqe

theorem matchExpectedToken_cons {s : TokenStream} {token : Token} {rest : List Token}
    (h : s.rest = token :: rest) (expected : TokenType) :
    matchExpectedToken expected s =
      if token.type ≠ expected then
        .error (.parse (ascii "Unexpected token: " ++ token.value) token.locBegin token.locEnd)
      else .ok (token.value, ⟨s.behind, rest⟩) := by
  have hget : Parse.get s = .ok (token, ⟨s.behind, rest⟩) :=
    bind_ok.mpr ⟨token, s, peek_cons h, by simp only [Reading.get, h, sameTokens]⟩
  have hmatch : matchExpectedToken expected s = (if token.type ≠ expected then
      Parse.fail (ascii "Unexpected token: " ++ token.value) token else pure token.value : Parse Bytes)
        ⟨s.behind, rest⟩ := by
    change (Parse.get s).bind _ = _
    rw [hget]
    rfl
  rw [hmatch]
  split_ifs <;> rfl

/-- One token of the type, and its value. -/
def Single (type : TokenType) (v : Bytes) (w : List Token) : Prop :=
  ∃ token, w = [token] ∧ token.type = type ∧ token.value = v

theorem meets_matchExpectedToken (expected : TokenType) :
    Meets sameTokens (StreamIn tokens) (ParseFault tokens) (matchExpectedToken expected)
      fun _ v w _ => Single expected v w where
  reads s hs v t := by
    cases hrest : s.rest with
    | nil =>
        obtain ⟨e, he, -⟩ := peek_nil hs hrest
        constructor
        · intro h
          obtain ⟨_, _, h, -⟩ := bind_ok.mp h
          obtain ⟨_, _, h, -⟩ := bind_ok.mp h
          cases he.symm.trans h
        · rintro ⟨w, hw, token, rfl, -⟩
          cases hrest.symm.trans hw.rest
    | cons token rest =>
        rw [matchExpectedToken_cons hrest]
        constructor
        · intro h
          split_ifs at h with htype
          cases h
          exact ⟨[token], ⟨hrest, rfl⟩, token, rfl, not_not.mp htype, rfl⟩
        · rintro ⟨w, hw, token', rfl, htype, rfl⟩
          obtain ⟨rest', hrest', hw⟩ := Source.reads_cons.mp hw
          cases hrest.symm.trans hrest'
          rw [if_neg (not_not.mpr htype), Source.reads_nil.mp hw]
          rfl
  fails s hs e h := by
    cases hrest : s.rest with
    | nil =>
        obtain ⟨e', he', hfault⟩ := peek_nil hs hrest
        rcases bind_error.mp h with h | ⟨_, _, h, -⟩
        · rcases bind_error.mp h with h | ⟨_, _, h, -⟩
          · cases he'.symm.trans h
            exact hfault
          · cases he'.symm.trans h
        · obtain ⟨_, _, h, -⟩ := bind_ok.mp h
          cases he'.symm.trans h
    | cons token rest =>
        rw [matchExpectedToken_cons hrest] at h
        split_ifs at h with htype
        cases h
        exact hs.fault (hrest ▸ List.mem_cons_self) _

theorem meets_discardToken (expected : TokenType) :
    Meets sameTokens (StreamIn tokens) (ParseFault tokens) (discard (matchExpectedToken expected))
      fun _ _ w _ => ∃ v, Single expected v w :=
  ((meets_matchExpectedToken expected).map fun _ => ()).congr fun _ _ _ _ => by simp

/-- A failure that points to a token kept from before. -/
theorem meets_failAt {β : Type} {token : Token} (htoken : token ∈ tokens) (m : Bytes) :
    Meets sameTokens I (ParseFault tokens) (Parse.fail m token : Parse β) fun _ _ _ _ => False where
  reads s _ b t := by
    constructor
    · rintro ⟨⟩
    · rintro ⟨w, -, h⟩
      exact h.elim
  fails s _ e he := by
    cases he
    exact .inl ⟨token, htoken, m, rfl⟩

theorem meets_readDouble (d : Doubles) {currentToken : Token} (hcurrent : currentToken ∈ tokens)
    (value : Bytes) :
    Meets sameTokens (StreamIn tokens) (ParseFault tokens) (readDouble d currentToken value)
      fun _ e w _ => ∃ x, d.parse value = .ok x ∧ e = Json.number x ∧ w = [] := by
  unfold readDouble
  cases d.parse value with
  | ok x => exact (meets_pure _).congr fun _ _ _ _ => by simp
  | error c => exact (meets_failAt hcurrent _).congr fun _ _ _ _ => by simp

theorem meets_parseNumber (d : Doubles) :
    Meets sameTokens (StreamIn tokens) (ParseFault tokens) (parseNumber d)
      fun _ e w _ => ∃ v x, Single .number v w ∧ d.parse v = .ok x ∧ e = .number x := by
  refine (peek_bind (fun s hs => hs) fun currentToken hcurrent =>
    (Meets.bind (kept_streamIn tokens) (meets_matchExpectedToken .number)
      (meets_readDouble d hcurrent)).weaken fun s hs => hs.1).congr fun k e w rest => ?_
  constructor
  · rintro ⟨_, -, v, u, _, rfl, hu, x, hx, rfl, rfl⟩
    exact ⟨v, x, by simpa using hu, hx, rfl⟩
  · rintro ⟨v, x, hw, hx, rfl⟩
    obtain ⟨token, rfl, -⟩ := id hw
    exact ⟨token, rfl, v, [token], [], rfl, hw, x, hx, rfl, rfl⟩

/-! ### Members and elements -/

theorem insert_iff {o o' : Object} {name : String} {e : Json} :
    o.insert name e = some o' ↔ name ∉ o.map Prod.fst ∧ o' = o ++ [(name, e)] := by
  have hlookup : (o.lookup name).isSome = true ↔ name ∈ o.map Prod.fst := by
    induction o with
    | nil => simp
    | cons p o ih =>
        obtain ⟨n, x⟩ := p
        rw [Object.lookup_cons_eq]
        by_cases h : name = n <;> simp [h, ih]
  unfold Object.insert
  split_ifs with h
  · simp [hlookup.mp h]
  · simp [mt hlookup.mpr h, eq_comm]

/-- The token is a comma. -/
def isComma (t : Token) : Bool := t.type = .nextElement

theorem meets_nextElement :
    Meets sameTokens (StreamIn tokens) (ParseFault tokens) nextElement
      fun _ more w rest => (more = true ∧ ∃ a, isComma a = true ∧ w = [a]) ∨
        (more = false ∧ w = [] ∧ StopsAt isComma rest) := by
  have htaken : Meets sameTokens (StreamIn tokens) (ParseFault tokens)
      (discard (matchExpectedToken .nextElement) >>= fun _ => pure true)
      fun _ more w _ => more = true ∧ ∃ a, isComma a = true ∧ w = [a] := by
    refine (Meets.bind (kept_streamIn tokens) (meets_discardToken .nextElement) fun _ =>
      meets_pure true).congr fun k more w rest => ?_
    constructor
    · rintro ⟨_, _, _, rfl, ⟨v, a, rfl, ha, -⟩, rfl, rfl⟩
      exact ⟨rfl, a, by simpa [isComma] using ha, rfl⟩
    · rintro ⟨rfl, a, ha, rfl⟩
      exact ⟨(), [a], [], rfl, ⟨a.value, a, rfl, by simpa [isComma] using ha, rfl⟩, rfl, rfl⟩
  refine (Meets.look_bind fun bContinue => Meets.ite (fun h => htaken.weaken fun s hs => hs.1)
    fun h => (meets_pure false)).congr fun k more w rest => ?_
  change (if (w ++ rest).head?.any isComma = true then _ else _) ↔ _
  split_ifs with hcomma
  · constructor
    · exact fun h => .inl h
    · rintro (h | ⟨-, rfl, hstop⟩)
      · exact h
      · -- no comma in front of the rest, where one was seen
        cases rest with
        | nil => cases hcomma
        | cons a rest => cases (hstop a rfl).symm.trans hcomma
  · constructor
    · rintro ⟨rfl, rfl⟩
      refine .inr ⟨rfl, rfl, ?_⟩
      cases rest with
      | nil => simp [StopsAt]
      | cons a rest =>
          rintro b ⟨⟩
          exact Bool.eq_false_iff.mpr hcomma
    · rintro (⟨-, a, ha, rfl⟩ | ⟨rfl, rfl, -⟩)
      · exact absurd ha hcomma
      · exact ⟨rfl, rfl⟩

/-- A member in tokens: its name, the colon, its element. -/
def MemberWord (Item : Json → List Token → Prop) (m : String × Json) (w : List Token) : Prop :=
  ∃ n v u₁ u₂ u, w = u₁ ++ (u₂ ++ u) ∧ Single .string n u₁ ∧ Single .memberAssign v u₂ ∧
    m.1 = nameOf n ∧ Item m.2 u

section Fueled

variable {fuel : Nat} {parse : Parse Json} {Item : Json → List Token → Prop}

theorem meets_addMember (o : Object) {tokenName : Token} (hname : tokenName ∈ tokens) (name : Bytes)
    (e : Json) :
    Meets sameTokens (FueledIn tokens fuel) (ParseFault tokens) (addMember o tokenName name e)
      fun _ o' w _ => nameOf name ∉ o.map Prod.fst ∧ o' = o ++ [(nameOf name, e)] ∧ w = [] := by
  unfold addMember
  cases ho : o.insert (nameOf name) e with
  | none =>
      refine (meets_failAt hname _).congr fun k o' w rest => ?_
      have hnot : ¬ nameOf name ∉ o.map Prod.fst := fun h => by
        cases (insert_iff.mpr ⟨h, rfl⟩).symm.trans ho
      exact ⟨False.elim, fun h => hnot h.1⟩
  | some o₁ =>
      obtain ⟨hnew, rfl⟩ := insert_iff.mp ho
      exact (meets_pure _).congr fun k o' w rest => ⟨fun h => ⟨hnew, h⟩, fun h => h.2⟩

theorem meets_parseMember
    (hparse : Meets sameTokens (FueledIn tokens fuel) (ParseFault tokens) parse
      fun _ e w _ => Item e w) (x : Object × Bool) :
    Meets sameTokens (FueledIn tokens fuel) (ParseFault tokens) (parseMember parse x)
      (Pass isComma (fun o m => m.1 ∉ o.map Prod.fst) (MemberWord Item) x) := by
  have hkept := kept_fueledIn tokens fuel
  refine (peek_bind (fun s hs => hs.1) fun tokenName hname => (Meets.bind hkept
    ((meets_matchExpectedToken .string).weaken fun s hs => hs.1) fun name => Meets.bind hkept
      ((meets_discardToken .memberAssign).weaken fun s hs => hs.1) fun _ => Meets.bind hkept hparse
        fun e => Meets.bind hkept (meets_addMember x.1 hname name e) fun o =>
          Meets.bind hkept (meets_nextElement.weaken fun s hs => hs.1) fun bContinue =>
            meets_pure (o, bContinue)).weaken fun s hs => hs.1).congr fun k y w rest => ?_
  constructor
  · rintro ⟨_, -, n, u₁, _, rfl, hn, _, u₂, _, rfl, ⟨v, hv⟩, e, u, _, rfl, he, o, _, _, rfl,
      ⟨hnew, rfl, rfl⟩, more, z, _, rfl, hz, rfl, rfl⟩
    refine ⟨(nameOf n, e), u₁ ++ (u₂ ++ u), rfl, hnew, ⟨n, v, u₁, u₂, u, rfl, hn, hv, rfl, he⟩, ?_⟩
    rcases hz with ⟨hmore, a, ha, rfl⟩ | ⟨hmore, rfl, hstop⟩
    · exact .inl ⟨hmore, a, ha, by simp⟩
    · exact .inr ⟨hmore, by simp, by simpa using hstop⟩
  · rintro ⟨⟨_, e⟩, _, hy, hnew, ⟨n, v, u₁, u₂, u, rfl, hn, hv, rfl, he⟩, hz⟩
    obtain ⟨token, rfl, -⟩ := id hn
    rcases hz with ⟨hmore, a, ha, rfl⟩ | ⟨hmore, rfl, hstop⟩
    · exact ⟨token, rfl, n, [token], u₂ ++ (u ++ [a]), by simp, hn, (), u₂, u ++ [a], rfl, ⟨v, hv⟩, e, u,
        [a], rfl, he, _, [], [a], rfl, ⟨hnew, rfl, rfl⟩, true, [a], [], rfl, .inl ⟨rfl, a, ha, rfl⟩,
        Prod.ext hy hmore, rfl⟩
    · exact ⟨token, rfl, n, [token], u₂ ++ u, by simp, hn, (), u₂, u, rfl, ⟨v, hv⟩, e, u, [], by simp, he,
        _, [], [], rfl, ⟨hnew, rfl, rfl⟩, false, [], [], rfl, .inr ⟨rfl, rfl, by simpa using hstop⟩,
        Prod.ext hy hmore, rfl⟩

theorem meets_parseItem
    (hparse : Meets sameTokens (FueledIn tokens fuel) (ParseFault tokens) parse
      fun _ e w _ => Item e w) (x : List Json × Bool) :
    Meets sameTokens (FueledIn tokens fuel) (ParseFault tokens) (parseItem parse x)
      (Pass isComma (fun _ _ => True) Item x) := by
  refine (Meets.bind (kept_fueledIn tokens fuel) hparse fun e => Meets.bind (kept_fueledIn tokens fuel)
    (meets_nextElement.weaken fun s hs => hs.1) fun bContinue => meets_pure _).congr fun k y w rest => ?_
  constructor
  · rintro ⟨e, u, _, rfl, he, more, z, _, rfl, hz, rfl, rfl⟩
    refine ⟨e, u, rfl, trivial, he, ?_⟩
    rcases hz with ⟨hmore, a, ha, rfl⟩ | ⟨hmore, rfl, hstop⟩
    · exact .inl ⟨hmore, a, ha, by simp⟩
    · exact .inr ⟨hmore, by simp, by simpa using hstop⟩
  · rintro ⟨e, u, hy, -, he, ⟨hmore, a, ha, rfl⟩ | ⟨hmore, rfl, hstop⟩⟩
    · exact ⟨e, u, [a], rfl, he, true, [a], [], rfl, .inl ⟨rfl, a, ha, rfl⟩, Prod.ext hy hmore, rfl⟩
    · exact ⟨e, w, [], by simp, he, false, [], [], rfl, .inr ⟨rfl, rfl, by simpa using hstop⟩,
        Prod.ext hy hmore, rfl⟩

/-- The first token of a list is that of its first item. -/
theorem listed_head {β : Type} {Word : β → List Token → Prop} {P : Token → Prop}
    (hword : ∀ b u, Word b u → ∃ a u', u = a :: u' ∧ P a) {b : β} {bs : List β} {u : List Token}
    (h : Listed isComma Word (b :: bs) u) : ∃ a u', u = a :: u' ∧ P a := by
  cases h with
  | single hb => exact hword _ _ hb
  | cons hb _ _ =>
      obtain ⟨a, u', rfl, ha⟩ := hword _ _ hb
      exact ⟨a, _, rfl, ha⟩

/-- What the brackets of an object or an array enclose: nothing, or items up to the closing bracket. -/
theorem meets_enclosed {β : Type} {ok : List β → β → Prop} {Word : β → List Token → Prop}
    {opening closing : TokenType} {pass : List β × Bool → Parse (List β × Bool)}
    (hpass : ∀ x, Meets sameTokens (FueledIn tokens fuel) (ParseFault tokens) (pass x)
      (Pass isComma ok Word x))
    (hword : ∀ b u, Word b u → ∃ a u', u = a :: u' ∧ a.type ≠ closing)
    (hclosing : closing ≠ .nextElement) :
    Meets sameTokens (FueledIn tokens (fuel + 1)) (ParseFault tokens)
      (discard (matchExpectedToken opening) >>= fun _ => Parse.nextIs (· ≠ closing) >>= fun bContinue =>
        whileLoop .outOfFuel (fun x _ => x.2) pass fuel ([], bContinue) >>= fun x =>
          discard (matchExpectedToken closing) >>= fun _ => pure x.1)
      fun _ bs w _ => ∃ v v' u₁ u u₂, w = u₁ ++ (u ++ u₂) ∧ Single opening v u₁ ∧
        Single closing v' u₂ ∧ Admitted ok [] bs ∧ Listed isComma Word bs u := by
  have hkept := kept_fueledIn tokens fuel
  have hprogress : ∀ {x k y u rest}, Pass (κ := List Token) isComma ok Word x k y u rest → u ≠ [] :=
    Pass.progress fun b u hb => by
      obtain ⟨a, u', rfl, -⟩ := hword b u hb
      exact List.cons_ne_nil a u'
  have hclose : ∀ bs : List β, Meets sameTokens (FueledIn tokens fuel) (ParseFault tokens)
      (discard (matchExpectedToken closing) >>= fun _ => pure bs)
      fun _ bs' w _ => bs' = bs ∧ ∃ v, Single closing v w := by
    intro bs
    refine (Meets.bind hkept ((meets_discardToken closing).weaken fun s hs => hs.1) fun _ =>
      meets_pure bs).congr fun k bs' w rest => ?_
    constructor
    · rintro ⟨_, u, _, rfl, hu, rfl, rfl⟩
      exact ⟨rfl, by simpa using hu⟩
    · rintro ⟨rfl, hw⟩
      exact ⟨(), w, [], by simp, hw, rfl, rfl⟩
  have hloop : ∀ more, Meets sameTokens (FueledIn tokens fuel) (ParseFault tokens)
      (whileLoop .outOfFuel (fun x _ => x.2) pass fuel ([], more))
      (Turns sameTokens (fun x _ => x.2) (Pass isComma ok Word) ([], more)) := fun more =>
    (Meets.whileLoop hkept (fun x => (hpass x).weaken fun s hs => hs.1) hprogress fuel
      ([], more)).weaken fun s hs => ⟨hs, hs.2⟩
  refine (Meets.bind_of (J := FueledIn tokens fuel)
    ((meets_discardToken opening).weaken fun s hs => hs.1) (fun _ => Meets.look_bind fun more =>
      (Meets.bind hkept (hloop more) fun x => hclose x.1).weaken fun s hs => hs.1) ?_).congr
        fun k bs w rest => ?_
  · rintro s b u t ⟨hs, hfuel⟩ hu ⟨v, token, rfl, -⟩
    have hlength := hu.length
    exact ⟨kept_streamIn tokens hs hu, by simp at hlength; omega⟩
  · constructor
    · rintro ⟨_, u₁, _, rfl, ⟨v, hv⟩, ⟨_, more⟩, u, u₂, rfl, hturns, rfl, v', hv'⟩
      refine ⟨v, v', u₁, u, u₂, rfl, hv, hv', ?_⟩
      cases hmore : (u ++ u₂ ++ rest).head?.any fun t => decide (t.type ≠ closing) with
      | true =>
          simp only [hmore] at hturns
          obtain ⟨-, -, c, cs, rfl, hok, hlisted⟩ := turns_pass.mp hturns
          exact ⟨hok, hlisted⟩
      | false =>
          simp only [hmore] at hturns
          obtain ⟨hx, rfl⟩ := (turns_iff.mp hturns : _ ∧ _)
          cases hx
          exact ⟨trivial, .nil⟩
    · rintro ⟨v, v', u₁, u, u₂, rfl, hv, hv', hok, hlisted⟩
      refine ⟨(), u₁, _, rfl, ⟨v, hv⟩, (bs, false), u, u₂, rfl, ?_, rfl, v', hv'⟩
      obtain ⟨last, rfl, hlast, -⟩ := hv'
      cases bs with
      | nil =>
          cases hlisted
          have hmore : (([] : List Token) ++ [last] ++ rest).head?.any
              (fun t => decide (t.type ≠ closing)) = false := by simp [hlast]
          simp only [hmore]
          exact .done rfl
      | cons b bs =>
          obtain ⟨a, u, rfl, ha⟩ := listed_head hword hlisted
          have hmore : (a :: u ++ [last] ++ rest).head?.any
              (fun t => decide (t.type ≠ closing)) = true := by simp [ha]
          simp only [hmore]
          refine turns_pass.mpr ⟨rfl, ?_, b, bs, rfl, hok, hlisted⟩
          rintro t ⟨⟩
          simp [isComma, hlast, hclosing]

end Fueled

theorem single_iff {type : TokenType} {v : Bytes} {w : List Token} :
    Single type v w ↔ w.map Token.lexeme = [(type, v)] := by
  constructor
  · rintro ⟨token, rfl, rfl, rfl⟩
    rfl
  · intro h
    obtain ⟨token, rest, rfl, htoken, hrest⟩ := List.map_eq_cons_iff.mp h
    cases htoken
    exact ⟨token, by rw [List.map_eq_nil_iff.mp hrest], rfl, rfl⟩

/-- The words of the parser and those of the grammar: brackets around a list. -/
theorem enclosed_iff {β : Type} {Word : β → List Token → Prop} {Word' : β → List Lexeme → Prop}
    (hword : ∀ b u, Word b u ↔ Word' b (u.map Token.lexeme)) {opening closing : TokenType} {bs : List β}
    {w : List Token} :
    (∃ v v' u₁ u u₂, w = u₁ ++ (u ++ u₂) ∧ Single opening v u₁ ∧ Single closing v' u₂ ∧
        Listed isComma Word bs u) ↔
      ∃ v v' u, w.map Token.lexeme = (opening, v) :: u ++ [(closing, v')] ∧
        Listed (fun l : Lexeme => l.1 = .nextElement) Word' bs u := by
  have hlisted : ∀ u, Listed isComma Word bs u ↔
      Listed (fun l : Lexeme => l.1 = .nextElement) Word' bs (u.map Token.lexeme) := by
    intro u
    rw [← listed_map]
    have : Word = fun b u => Word' b (u.map Token.lexeme) := by
      funext b u
      exact propext (hword b u)
    rw [this]
    rfl
  constructor
  · rintro ⟨v, v', u₁, u, u₂, rfl, hv, hv', hu⟩
    refine ⟨v, v', u.map Token.lexeme, ?_, (hlisted u).mp hu⟩
    rw [List.map_append, List.map_append, single_iff.mp hv, single_iff.mp hv']
    rfl
  · rintro ⟨v, v', u', hw, hu⟩
    obtain ⟨x, u₂, rfl, hx, hu₂⟩ := List.map_eq_append_iff.mp hw
    obtain ⟨a, u, rfl, ha, rfl⟩ := List.map_eq_cons_iff.mp hx
    exact ⟨v, v', [a], u, u₂, rfl, single_iff.mpr (by rw [← ha]; rfl), single_iff.mpr hu₂,
      (hlisted u).mpr hu⟩

theorem memberWord_iff {d : Doubles} (m : String × Json) (w : List Token) :
    MemberWord (fun e u => ElementTokens d e (u.map Token.lexeme)) m w ↔
      MemberTokens d m (w.map Token.lexeme) := by
  constructor
  · rintro ⟨n, v, u₁, u₂, u, rfl, hn, hv, hm, hu⟩
    rw [List.map_append, List.map_append, single_iff.mp hn, single_iff.mp hv]
    obtain ⟨_, e⟩ := m
    subst hm
    exact .mk hu
  · generalize hl : w.map Token.lexeme = l
    rintro ⟨hu⟩
    obtain ⟨a, x, rfl, ha, hx⟩ := List.map_eq_cons_iff.mp hl
    obtain ⟨b, u, rfl, hb, rfl⟩ := List.map_eq_cons_iff.mp hx
    exact ⟨_, _, [a], [b], u, rfl, single_iff.mpr (by rw [← ha]; rfl),
      single_iff.mpr (by rw [← hb]; rfl), rfl, hu⟩

theorem admitted_names {o ms : Object} :
    Admitted (fun (o : Object) m => m.1 ∉ o.map Prod.fst) o ms ↔
      (ms.map Prod.fst).Nodup ∧ ∀ m ∈ ms, m.1 ∉ o.map Prod.fst := by
  induction ms generalizing o with
  | nil => simp [Admitted]
  | cons m ms ih =>
      rw [Admitted, ih]
      simp only [List.map_cons, List.nodup_cons, List.mem_cons, forall_eq_or_imp, List.map_append,
        List.mem_append, List.map_nil, List.not_mem_nil, or_false, not_or]
      constructor
      · rintro ⟨hm, hnodup, hms⟩
        refine ⟨⟨?_, hnodup⟩, hm, fun x hx => (hms x hx).1⟩
        rintro hmem
        obtain ⟨x, hx, hxm⟩ := List.mem_map.mp hmem
        exact (hms x hx).2 hxm
      · rintro ⟨⟨hnew, hnodup⟩, hm, hms⟩
        refine ⟨hm, hnodup, fun x hx => ⟨hms x hx, ?_⟩⟩
        rintro hxm
        exact hnew (hxm ▸ List.mem_map_of_mem hx)

/-- The first token of an element. -/
def opens : Json → TokenType
  | .null => .null
  | .boolean _ => .boolean
  | .number _ => .number
  | .string _ => .string
  | .array _ => .arrayBegin
  | .object _ => .objectBegin

theorem ElementTokens.head {d : Doubles} {e : Json} {w : List Lexeme} (h : ElementTokens d e w) :
    ∃ v w', w = (opens e, v) :: w' := by
  cases h <;> exact ⟨_, _, rfl⟩

theorem elementTokens_head {d : Doubles} {e : Json} {w : List Token}
    (h : ElementTokens d e (w.map Token.lexeme)) : ∃ a w', w = a :: w' ∧ a.type = opens e := by
  obtain ⟨v, w', hw⟩ := h.head
  obtain ⟨a, w', rfl, ha, -⟩ := List.map_eq_cons_iff.mp hw
  exact ⟨a, w', rfl, congrArg Prod.fst ha⟩

section Elements

variable {fuel : Nat} {d : Doubles} {parse : Parse Json}

theorem meets_parseObject (hparse : Meets sameTokens (FueledIn tokens fuel) (ParseFault tokens) parse
      fun _ e w _ => ElementTokens d e (w.map Token.lexeme)) :
    Meets sameTokens (FueledIn tokens (fuel + 1)) (ParseFault tokens) (parseObject fuel parse)
      fun _ o w _ => ElementTokens d (.object o) (w.map Token.lexeme) := by
  refine (meets_enclosed (meets_parseMember hparse) ?_ (by decide)).congr fun k o w rest => ?_
  · rintro m u ⟨n, v, u₁, u₂, u', rfl, ⟨token, rfl, htype, -⟩, -⟩
    exact ⟨token, _, rfl, by simp [htype]⟩
  · constructor
    · rintro ⟨v, v', u₁, u, u₂, hw, hv, hv', hok, hu⟩
      obtain ⟨v, v', u, hw, hu⟩ := (enclosed_iff memberWord_iff).mp
        ⟨v, v', u₁, u, u₂, hw, hv, hv', hu⟩
      rw [hw]
      exact .object hu (admitted_names.mp hok).1
    · generalize hw : w.map Token.lexeme = l
      rintro (_ | _ | _ | _ | _ | ⟨hu, hnodup⟩)
      obtain ⟨v, v', u₁, u, u₂, hw, hv, hv', hu⟩ :=
        (enclosed_iff memberWord_iff).mpr ⟨_, _, _, hw, hu⟩
      exact ⟨v, v', u₁, u, u₂, hw, hv, hv', admitted_names.mpr ⟨hnodup, by simp⟩, hu⟩

theorem admitted_all {β : Type} (bs cs : List β) : Admitted (fun _ _ => True) bs cs := by
  induction cs generalizing bs with
  | nil => exact trivial
  | cons c cs ih => exact ⟨trivial, ih _⟩

theorem meets_parseArray (hparse : Meets sameTokens (FueledIn tokens fuel) (ParseFault tokens) parse
      fun _ e w _ => ElementTokens d e (w.map Token.lexeme)) :
    Meets sameTokens (FueledIn tokens (fuel + 1)) (ParseFault tokens) (parseArray fuel parse)
      fun _ es w _ => ElementTokens d (.array es) (w.map Token.lexeme) := by
  refine (meets_enclosed (meets_parseItem hparse) ?_ (by decide)).congr fun k es w rest => ?_
  · intro e u hu
    obtain ⟨a, u', rfl, ha⟩ := elementTokens_head hu
    exact ⟨a, u', rfl, by rw [ha]; cases e <;> simp [opens]⟩
  · constructor
    · rintro ⟨v, v', u₁, u, u₂, hw, hv, hv', -, hu⟩
      obtain ⟨v, v', u, hw, hu⟩ := (enclosed_iff fun e u => Iff.rfl).mp
        ⟨v, v', u₁, u, u₂, hw, hv, hv', hu⟩
      rw [hw]
      exact .array hu
    · generalize hw : w.map Token.lexeme = l
      rintro (_ | _ | _ | _ | ⟨hu⟩ | _)
      obtain ⟨v, v', u₁, u, u₂, hw, hv, hv', hu⟩ :=
        (enclosed_iff fun e u => Iff.rfl).mpr ⟨_, _, _, hw, hu⟩
      exact ⟨v, v', u₁, u, u₂, hw, hv, hv', admitted_all [] es, hu⟩

/-- Behind a peeked token the parser of one kind of element meets the whole grammar: no other kind
    begins with that token. -/
theorem meets_kind {p : Parse Json} {R : Json → List Token → Prop} {token : Token}
    (hp : Meets sameTokens I (ParseFault tokens) p fun _ e w _ => R e w)
    (hto : ∀ e w, R e w → ElementTokens d e (w.map Token.lexeme))
    (hfrom : ∀ e w, token.type = opens e → ElementTokens d e (w.map Token.lexeme) → R e w) :
    Meets sameTokens (fun s => I s ∧ s.rest.head? = some token) (ParseFault tokens) p
      fun _ e w _ => ElementTokens d e (w.map Token.lexeme) := by
  refine (hp.weaken fun s hs => hs.1).congr_of ?_
  rintro s e w t ⟨-, hhead⟩ hw
  constructor
  · exact hto e w
  · intro h
    obtain ⟨a, w', rfl, ha⟩ := elementTokens_head h
    rw [hw.rest] at hhead
    cases hhead
    exact hfrom e _ ha h

theorem meets_parseElement (d : Doubles) (fuel : Nat) :
    Meets sameTokens (FueledIn tokens fuel) (ParseFault tokens) (parseElement d fuel)
      fun _ e w _ => ElementTokens d e (w.map Token.lexeme) := by
  induction fuel with
  | zero =>
      exact ⟨fun s hs => absurd hs.2 (Nat.not_lt_zero _), fun s hs => absurd hs.2 (Nat.not_lt_zero _)⟩
  | succ fuel ih =>
      have hsingle : ∀ type, Meets sameTokens (FueledIn tokens (fuel + 1)) (ParseFault tokens)
          (matchExpectedToken type) fun _ v w _ => Single type v w :=
        fun type => (meets_matchExpectedToken type).weaken fun s hs => hs.1
      refine (peek_bind (fun s hs => hs.1) (R := fun _ _ e w _ => ElementTokens d e (w.map Token.lexeme))
        fun token htoken => ?_).congr fun k e w rest => ?_
      · cases htype : token.type with
        | objectBegin =>
            refine meets_kind ((meets_parseObject ih).map Json.object) ?_ fun e w he h => ?_
            · rintro e w ⟨o, rfl, h⟩
              exact h
            · cases e <;> cases htype.symm.trans he
              exact ⟨_, rfl, h⟩
        | arrayBegin =>
            refine meets_kind ((meets_parseArray ih).map Json.array) ?_ fun e w he h => ?_
            · rintro e w ⟨es, rfl, h⟩
              exact h
            · cases e <;> cases htype.symm.trans he
              exact ⟨_, rfl, h⟩
        | string =>
            refine meets_kind ((hsingle .string).map Json.string) ?_ fun e w he h => ?_
            · rintro e w ⟨v, rfl, h⟩
              exact single_iff.mp h ▸ .string
            · cases e <;> cases htype.symm.trans he
              generalize hw : w.map Token.lexeme = l at h
              cases h
              exact ⟨_, rfl, single_iff.mpr hw⟩
        | number =>
            refine meets_kind ((meets_parseNumber d).weaken fun s hs => hs.1) ?_ fun e w he h => ?_
            · rintro e w ⟨v, x, h, hx, rfl⟩
              exact single_iff.mp h ▸ .number hx
            · cases e <;> cases htype.symm.trans he
              generalize hw : w.map Token.lexeme = l at h
              cases h with
              | number hx => exact ⟨_, _, single_iff.mpr hw, hx, rfl⟩
        | boolean =>
            refine meets_kind ((hsingle .boolean).map fun value => Json.boolean (value = ascii "true"))
              ?_ fun e w he h => ?_
            · rintro e w ⟨v, rfl, h⟩
              exact single_iff.mp h ▸ .boolean
            · cases e <;> cases htype.symm.trans he
              generalize hw : w.map Token.lexeme = l at h
              cases h
              exact ⟨_, rfl, single_iff.mpr hw⟩
        | null =>
            refine meets_kind ((hsingle .null).map fun _ => Json.null) ?_ fun e w he h => ?_
            · rintro e w ⟨v, rfl, h⟩
              exact single_iff.mp h ▸ .null
            · cases e <;> cases htype.symm.trans he
              generalize hw : w.map Token.lexeme = l at h
              cases h
              exact ⟨_, rfl, single_iff.mpr hw⟩
        | _ =>
            refine meets_kind (meets_failAt htoken _) (fun e w h => h.elim) fun e w he h => ?_
            cases e <;> cases htype.symm.trans he
      · constructor
        · rintro ⟨_, -, h⟩
          exact h
        · intro h
          obtain ⟨a, w', rfl, -⟩ := elementTokens_head h
          exact ⟨a, rfl, h⟩

end Elements

end Parser

/-! ## 3. Documents -/

/-- How a document is written: its tokens, with white space between them. -/
def Document (d : Doubles) (text : Bytes) (o : Object) : Prop :=
  ∃ lexemes, LexemesSpelling lexemes text ∧ ElementTokens d (.object o) lexemes

variable {d : Doubles} {text : Bytes}

theorem fueledIn_start (tokens : List Token) :
    FueledIn tokens (tokens.length + 1) ⟨tokens, tokens⟩ :=
  ⟨⟨rfl, List.suffix_refl tokens⟩, Nat.lt_succ_self _⟩

/-- `parseObject` with the fuel `read` gives it, which is more than it needs. -/
theorem meets_document (d : Doubles) (tokens : List Token) :
    Meets sameTokens (FueledIn tokens (tokens.length + 1)) (ParseFault tokens)
      (parseObject (tokens.length + 1) (parseElement d (tokens.length + 1)))
      fun _ o w _ => ElementTokens d (.object o) (w.map Token.lexeme) :=
  (meets_parseObject (meets_parseElement d (tokens.length + 1))).weaken
    fun _ hs => ⟨hs.1, Nat.lt_succ_of_lt hs.2⟩

theorem read_of_scan {tokens : List Token} {s : InputStream}
    (h : scan (text.length + 1) ⟨{}, text⟩ = .ok (tokens, s)) : read d text = readTokens d tokens := by
  simp only [read, h]
  rfl

theorem read_of_scan_error {e : ReadException} (h : scan (text.length + 1) ⟨{}, text⟩ = .error e) :
    read d text = .error e := by
  simp only [read, h]
  rfl

theorem readTokens_iff {tokens : List Token} {o : Object} :
    readTokens d tokens = .ok o ↔ ElementTokens d (.object o) (tokens.map Token.lexeme) := by
  have hreads := (meets_document d tokens).reads _ (fueledIn_start tokens)
  constructor
  · intro h
    unfold readTokens at h
    cases hparse : parseObject (tokens.length + 1) (parseElement d (tokens.length + 1))
        ⟨tokens, tokens⟩ with
    | error e =>
        rw [hparse] at h
        cases h
    | ok r =>
        obtain ⟨object, rest⟩ := r
        obtain ⟨w, hw, hR⟩ := (hreads object rest).mp hparse
        rw [hparse] at h
        cases hend : rest.rest with
        | nil =>
            simp only [bind, Except.bind, hend] at h
            cases h
            have htokens : tokens = w ++ [] := hend ▸ hw.rest
            rw [List.append_nil] at htokens
            exact htokens ▸ hR
        | cons token more =>
            simp only [bind, Except.bind, hend] at h
            cases h
  · intro h
    have hall : (Source.mk tokens tokens).Reads sameTokens tokens ⟨tokens, []⟩ :=
      ⟨(List.append_nil tokens).symm, (List.foldl_fixed' (fun _ => rfl) tokens).symm⟩
    have hparse := (hreads o ⟨tokens, []⟩).mpr ⟨tokens, hall, h⟩
    unfold readTokens
    rw [hparse]
    rfl

/-- The reader reads exactly the texts the grammar describes, each as its document. -/
theorem read_iff {o : Object} : read d text = .ok o ↔ Document d text o := by
  constructor
  · intro h
    cases hscan : scan (text.length + 1) ⟨{}, text⟩ with
    | error e => cases (read_of_scan_error hscan).symm.trans h
    | ok r =>
        obtain ⟨tokens, s⟩ := r
        rw [read_of_scan hscan, readTokens_iff] at h
        exact ⟨_, (scan_ok hscan).1, h⟩
  · rintro ⟨lexemes, hlexemes, h⟩
    obtain ⟨tokens, s, hscan, rfl⟩ := scan_of_spelling hlexemes
    rw [read_of_scan hscan, readTokens_iff]
    exact h

/-- What an exception of the reader points to: a place in the text the scanner came to, or the place of
    a token; the last token of no tokens is asked for where there is nothing but white space. -/
def Points (text : Bytes) : ReadException → Prop
  | .scan _ error => ∃ p, error = locationOf p ∧ (p <+: text ∨ p = text ++ [255])
  | .parse _ tokenBegin tokenEnd =>
      ∃ t, TokenOf text t ∧ tokenBegin = t.locBegin ∧ tokenEnd = t.locEnd
  | .emptyTokens => ∀ c ∈ text, isSpace c = true
  | .outOfFuel => False

theorem lexemes_nil_iff : LexemesSpelling [] text ↔ ∀ c ∈ text, isSpace c = true := by
  constructor
  · generalize hl : ([] : List (TokenType × Bytes)) = l
    intro h
    induction h with
    | nil => simp
    | blank hc _ ih => exact List.forall_mem_cons.mpr ⟨hc, ih hl⟩
    | token _ _ _ => cases hl
  · intro h
    have := LexemesSpelling.nil.blanks h
    rwa [List.append_nil] at this

theorem readTokens_error {tokens : List Token} {e : ReadException} (h : readTokens d tokens = .error e) :
    ParseFault tokens e := by
  have hmeets := meets_document d tokens
  unfold readTokens at h
  cases hparse : parseObject (tokens.length + 1) (parseElement d (tokens.length + 1))
      ⟨tokens, tokens⟩ with
  | error e' =>
      rw [hparse] at h
      cases h
      exact hmeets.fails _ (fueledIn_start tokens) e hparse
  | ok r =>
      obtain ⟨object, rest⟩ := r
      obtain ⟨w, hw, -⟩ := (hmeets.reads _ (fueledIn_start tokens) object rest).mp hparse
      rw [hparse] at h
      cases hend : rest.rest with
      | nil =>
          simp only [bind, Except.bind, hend] at h
          cases h
      | cons token more =>
          simp only [bind, Except.bind, hend] at h
          cases h
          have hrest := (kept_streamIn tokens (fueledIn_start tokens).1 hw)
          exact hrest.fault (hend ▸ List.mem_cons_self) _

/-- Every rejection points into the text: a scan exception to a place in it, a parse exception to one of
    its tokens. The loops end, and the undefined case is that of the blank texts. -/
theorem read_points {e : ReadException} (h : read d text = .error e) : Points text e := by
  cases hscan : scan (text.length + 1) ⟨{}, text⟩ with
  | error e' =>
      cases (read_of_scan_error hscan).symm.trans h
      obtain ⟨m, p, rfl, hp⟩ := scan_error hscan
      exact ⟨p, rfl, hp⟩
  | ok r =>
      obtain ⟨tokens, s⟩ := r
      obtain ⟨hspelling, hplaces⟩ := scan_ok hscan
      rw [read_of_scan hscan] at h
      rcases readTokens_error h with ⟨token, htoken, m, rfl⟩ | ⟨rfl, rfl⟩
      · exact ⟨token, hplaces token htoken, rfl, rfl⟩
      · exact lexemes_nil_iff.mp hspelling

theorem read_emptyTokens_iff : read d text = .error .emptyTokens ↔ ∀ c ∈ text, isSpace c = true := by
  constructor
  · exact fun h => read_points h
  · intro h
    obtain ⟨tokens, s, hscan, hlexemes⟩ := scan_of_spelling (lexemes_nil_iff.mpr h)
    rw [List.map_eq_nil_iff.mp hlexemes] at hscan
    rw [read_of_scan hscan]
    rfl

/-- The reader decides what is a document: it reads the only one a text is written for, or there is none
    and the exception points into the text; the undefined case is that of the blank texts. -/
theorem read_decides (d : Doubles) (text : Bytes) :
    (∃ o, read d text = .ok o ∧ Document d text o ∧ ∀ o', Document d text o' → o' = o) ∨
      ∃ e, read d text = .error e ∧ (∀ o, ¬ Document d text o) ∧ Points text e ∧
        (e = .emptyTokens ↔ ∀ c ∈ text, isSpace c = true) := by
  cases h : read d text with
  | ok o =>
      refine .inl ⟨o, rfl, read_iff.mp h, fun o' ho' => ?_⟩
      cases (read_iff.mpr ho').symm.trans h
      rfl
  | error e =>
      refine .inr ⟨e, rfl, fun o ho => ?_, read_points h, ?_⟩
      · cases (read_iff.mpr ho).symm.trans h
      · rw [← read_emptyTokens_iff (d := d), h, Except.error.injEq]

end Domoio.Reader
