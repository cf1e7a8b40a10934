import Domoio.Lib.Numeral
import Domoio.Encoding
import Domoio.Parsing

/-
  File:      Domoio/Reread.lean
  Subject:   What the JSON reader makes of what the JSON writer wrote.

  `Json.reread` is the element that comes back: the bytes of a string as its escapes decode, a number as
  its twenty digits parse, nothing where a number does not or two names have become one. The reader gives
  that document, and an exception where there is none (`read_write_iff`).
-/

namespace Domoio

open Lib Lib.Reading Reader

/-! ## 1. Tokens -/

mutual

/-- The tokens of a written element. -/
def lexemesOf (format : Rat → Bytes) : Json → List Lexeme
  | .null => [(.null, ascii "null")]
  | .boolean b => [(.boolean, ascii (if b then "true" else "false"))]
  | .number v => [(.number, format v)]
  | .string s => [(.string, reread s)]
  | .array [] => [(.arrayBegin, ascii "["), (.arrayEnd, ascii "]")]
  | .array (e :: es) =>
      (.arrayBegin, ascii "[") :: (lexemesOf format e ++ elementLexemes format es) ++
        [(.arrayEnd, ascii "]")]
  | .object [] => [(.objectBegin, ascii "\x7b"), (.objectEnd, ascii "\x7d")]
  | .object ((n, e) :: ms) =>
      (.objectBegin, ascii "\x7b") :: ((.string, reread (ascii n)) :: (.memberAssign, ascii ":") ::
        lexemesOf format e ++ memberLexemes format ms) ++ [(.objectEnd, ascii "\x7d")]

/-- Those of the elements behind the first one. -/
def elementLexemes (format : Rat → Bytes) : List Json → List Lexeme
  | [] => []
  | e :: es => (.nextElement, ascii ",") :: (lexemesOf format e ++ elementLexemes format es)

/-- Those of the members behind the first one. -/
def memberLexemes (format : Rat → Bytes) : List (String × Json) → List Lexeme
  | [] => []
  | (n, e) :: ms =>
      (.nextElement, ascii ",") :: (.string, reread (ascii n)) :: (.memberAssign, ascii ":") ::
        (lexemesOf format e ++ memberLexemes format ms)

end

theorem spelling_word {c : UInt8} {type : TokenType} {w text : Bytes} {l : List Lexeme}
    (hc : literal c = some (type, w)) (h : LexemesSpelling l text) :
    LexemesSpelling ((type, w) :: l) (w ++ text) :=
  .token (.word hc) h

theorem spelling_string (s : Bytes) {text : Bytes} {l : List Lexeme} (h : LexemesSpelling l text) :
    LexemesSpelling ((.string, reread s) :: l) (Writer.string s ++ text) :=
  .token (.quoted (chars_spelling s)) h

/-- A comma and a blank. -/
theorem spelling_comma {text : Bytes} {l : List Lexeme} (h : LexemesSpelling l text) :
    LexemesSpelling ((.nextElement, ascii ",") :: l) (ascii ", " ++ text) :=
  spelling_word (c := 44) rfl (.blank (c := 32) (by decide) h)

/-- A colon between blanks. -/
theorem spelling_colon {text : Bytes} {l : List Lexeme} (h : LexemesSpelling l text) :
    LexemesSpelling ((.memberAssign, ascii ":") :: l) (ascii " : " ++ text) :=
  .blank (c := 32) (by decide) (spelling_word (c := 58) rfl (.blank (c := 32) (by decide) h))

section Written

variable {d : Doubles} {text : Bytes} {l : List Lexeme}

/-- A numeral in front of what is no part of it. -/
theorem spelling_number (v : Rat) (hstop : StopsAt isNumeric text) (h : LexemesSpelling l text) :
    LexemesSpelling ((.number, d.format v) :: l) (d.format v ++ text) := by
  obtain ⟨c, cs, hformat, hc⟩ := d.format_head v
  have hnumeric := fun x hx => (d.format_numeric v x hx).1
  rw [hformat] at hnumeric ⊢
  exact .token (.numeral hc (fun x hx => hnumeric x (List.mem_cons_of_mem c hx)) hstop) h

/-- What follows an element or a member in a written text begins with no character of a number. -/
theorem stopsAt_elements {format : Rat → Bytes} (es : List Json) {rest : Bytes} :
    StopsAt isNumeric (Writer.elements format es ++ (ascii "]" ++ rest)) := by
  cases es with
  | nil =>
      rintro c ⟨⟩
      decide
  | cons e es =>
      simp only [Writer.elements, List.append_assoc]
      rintro c ⟨⟩
      decide

theorem stopsAt_members {format : Rat → Bytes} (ms : List (String × Json)) {rest : Bytes} :
    StopsAt isNumeric (Writer.members format ms ++ (ascii "\x7d" ++ rest)) := by
  cases ms with
  | nil =>
      rintro c ⟨⟩
      decide
  | cons m ms =>
      obtain ⟨n, e⟩ := m
      simp only [Writer.members, List.append_assoc]
      rintro c ⟨⟩
      decide

theorem spelling_boolean (b : Bool) (h : LexemesSpelling l text) :
    LexemesSpelling ((.boolean, ascii (if b then "true" else "false")) :: l)
      (ascii (if b then "true" else "false") ++ text) := by
  cases b with
  | true => exact spelling_word (c := 116) rfl h
  | false => exact spelling_word (c := 102) rfl h

mutual

/-- A written element is spelled in its tokens. -/
theorem spelling_element : ∀ (e : Json) {text : Bytes} {l : List Lexeme}, StopsAt isNumeric text →
    LexemesSpelling l text →
    LexemesSpelling (lexemesOf d.format e ++ l) (Writer.element d.format e ++ text)
  | .null, text, l, _, h => by
      simp only [lexemesOf, Writer.element]
      exact spelling_word (c := 110) rfl h
  | .boolean b, text, l, _, h => by
      simp only [lexemesOf, Writer.element]
      exact spelling_boolean b h
  | .number v, text, l, hstop, h => by
      simp only [lexemesOf, Writer.element]
      exact spelling_number v hstop h
  | .string s, text, l, _, h => by
      simp only [lexemesOf, Writer.element]
      exact spelling_string s h
  | .array [], text, l, _, h => by
      simp only [lexemesOf, Writer.element]
      exact spelling_word (c := 91) rfl (spelling_word (c := 93) rfl h)
  | .array (e :: es), text, l, _, h => by
      simp only [lexemesOf, Writer.element, List.append_assoc, List.cons_append, List.nil_append]
      exact spelling_word (c := 91) rfl (spelling_element e (stopsAt_elements es)
        (spelling_elements es (spelling_word (c := 93) rfl h)))
  | .object [], text, l, _, h => by
      simp only [lexemesOf, Writer.element]
      exact spelling_word (c := 123) rfl (spelling_word (c := 125) rfl h)
  | .object ((n, e) :: ms), text, l, _, h => by
      simp only [lexemesOf, Writer.element, List.append_assoc, List.cons_append, List.nil_append]
      exact spelling_word (c := 123) rfl (spelling_string (ascii n) (spelling_colon
        (spelling_element e (stopsAt_members ms) (spelling_members ms (spelling_word (c := 125) rfl h)))))

theorem spelling_elements : ∀ (es : List Json) {text : Bytes} {l : List Lexeme},
    LexemesSpelling ((.arrayEnd, ascii "]") :: l) (ascii "]" ++ text) →
    LexemesSpelling (elementLexemes d.format es ++ (.arrayEnd, ascii "]") :: l)
      (Writer.elements d.format es ++ (ascii "]" ++ text))
  | [], text, l, h => by simpa only [elementLexemes, Writer.elements, List.nil_append] using h
  | e :: es, text, l, h => by
      simp only [elementLexemes, Writer.elements, List.append_assoc, List.cons_append]
      exact spelling_comma (spelling_element e (stopsAt_elements es) (spelling_elements es h))

theorem spelling_members : ∀ (ms : List (String × Json)) {text : Bytes} {l : List Lexeme},
    LexemesSpelling ((.objectEnd, ascii "\x7d") :: l) (ascii "\x7d" ++ text) →
    LexemesSpelling (memberLexemes d.format ms ++ (.objectEnd, ascii "\x7d") :: l)
      (Writer.members d.format ms ++ (ascii "\x7d" ++ text))
  | [], text, l, h => by simpa only [memberLexemes, Writer.members, List.nil_append] using h
  | (n, e) :: ms, text, l, h => by
      simp only [memberLexemes, Writer.members, List.append_assoc, List.cons_append]
      exact spelling_comma (spelling_string (ascii n) (spelling_colon
        (spelling_element e (stopsAt_members ms) (spelling_members ms h))))

end

end Written

/-! ## 2. Elements -/

mutual

/-- The element that is read from the written one. -/
def Json.reread (d : Doubles) : Json → Option Json
  | .null => some .null
  | .boolean b => some (.boolean b)
  | .number v =>
      match d.parse (d.format v) with
      | .ok x => some (.number x)
      | .error _ => none
  | .string s => some (.string (Domoio.reread s))
  | .array es => (Json.rereadElements d es).map .array
  | .object ms =>
      (Json.rereadMembers d ms).bind fun ms' =>
        if (ms'.map Prod.fst).Nodup then some (.object ms') else none

def Json.rereadElements (d : Doubles) : List Json → Option (List Json)
  | [] => some []
  | e :: es => (e.reread d).bind fun e' => (Json.rereadElements d es).map (e' :: ·)

def Json.rereadMembers (d : Doubles) : List (String × Json) → Option Object
  | [] => some []
  | (n, e) :: ms => (e.reread d).bind fun e' =>
      (Json.rereadMembers d ms).map ((nameOf (Domoio.reread (ascii n)), e') :: ·)

end

/-- The tokens of a list of elements, and of a list of members. -/
def listLexemes (format : Rat → Bytes) : List Json → List Lexeme
  | [] => []
  | e :: es => lexemesOf format e ++ elementLexemes format es

def objectLexemes (format : Rat → Bytes) : Object → List Lexeme
  | [] => []
  | (n, e) :: ms =>
      (.string, Domoio.reread (ascii n)) :: (.memberAssign, ascii ":") ::
        (lexemesOf format e ++ memberLexemes format ms)

theorem lexemesOf_array (format : Rat → Bytes) (es : List Json) :
    lexemesOf format (.array es) =
      (.arrayBegin, ascii "[") :: (listLexemes format es ++ [(.arrayEnd, ascii "]")]) := by
  cases es with
  | nil => simp only [lexemesOf, listLexemes, List.nil_append]
  | cons e es => simp only [lexemesOf, listLexemes, List.append_assoc, List.cons_append]

theorem lexemesOf_object (format : Rat → Bytes) (ms : Object) :
    lexemesOf format (.object ms) =
      (.objectBegin, ascii "\x7b") :: (objectLexemes format ms ++ [(.objectEnd, ascii "\x7d")]) := by
  cases ms with
  | nil => simp only [lexemesOf, objectLexemes, List.nil_append]
  | cons m ms => simp only [lexemesOf, objectLexemes, List.append_assoc, List.cons_append]

theorem elementLexemes_cons (format : Rat → Bytes) (e : Json) (es : List Json) :
    elementLexemes format (e :: es) = (.nextElement, ascii ",") :: listLexemes format (e :: es) := by
  simp only [elementLexemes, listLexemes]

theorem listLexemes_cons (format : Rat → Bytes) (e e₂ : Json) (es : List Json) :
    listLexemes format (e :: e₂ :: es) =
      lexemesOf format e ++ (.nextElement, ascii ",") :: listLexemes format (e₂ :: es) := by
  rw [listLexemes, elementLexemes_cons]

theorem memberLexemes_cons (format : Rat → Bytes) (m : String × Json) (ms : Object) :
    memberLexemes format (m :: ms) = (.nextElement, ascii ",") :: objectLexemes format (m :: ms) := by
  simp only [memberLexemes, objectLexemes]

theorem objectLexemes_cons (format : Rat → Bytes) (n : String) (e : Json) (m₂ : String × Json)
    (ms : Object) :
    objectLexemes format ((n, e) :: m₂ :: ms) =
      (.string, Domoio.reread (ascii n)) :: (.memberAssign, ascii ":") ::
        lexemesOf format e ++ (.nextElement, ascii ",") :: objectLexemes format (m₂ :: ms) := by
  rw [objectLexemes, memberLexemes_cons]
  rfl

section Tokens

variable {d : Doubles}

theorem rereadElements_cons {e : Json} {es es' : List Json} :
    Json.rereadElements d (e :: es) = some es' ↔
      ∃ e₁ es₁, e.reread d = some e₁ ∧ Json.rereadElements d es = some es₁ ∧ es' = e₁ :: es₁ := by
  simp only [Json.rereadElements, Option.bind_eq_some_iff, Option.map_eq_some_iff]
  constructor
  · rintro ⟨e₁, he, es₁, hes, rfl⟩
    exact ⟨e₁, es₁, he, hes, rfl⟩
  · rintro ⟨e₁, es₁, he, hes, rfl⟩
    exact ⟨e₁, he, es₁, hes, rfl⟩

theorem rereadMembers_cons {n : String} {e : Json} {ms ms' : Object} :
    Json.rereadMembers d ((n, e) :: ms) = some ms' ↔
      ∃ e₁ ms₁, e.reread d = some e₁ ∧ Json.rereadMembers d ms = some ms₁ ∧
        ms' = (nameOf (Domoio.reread (ascii n)), e₁) :: ms₁ := by
  simp only [Json.rereadMembers, Option.bind_eq_some_iff, Option.map_eq_some_iff]
  constructor
  · rintro ⟨e₁, he, ms₁, hms, rfl⟩
    exact ⟨e₁, ms₁, he, hms, rfl⟩
  · rintro ⟨e₁, ms₁, he, hms, rfl⟩
    exact ⟨e₁, he, ms₁, hms, rfl⟩

theorem reread_object {ms : Object} {e' : Json} :
    (Json.object ms).reread d = some e' ↔
      ∃ ms', Json.rereadMembers d ms = some ms' ∧ (ms'.map Prod.fst).Nodup ∧ e' = .object ms' := by
  simp only [Json.reread, Option.bind_eq_some_iff]
  refine exists_congr fun ms' => and_congr_right fun _ => ?_
  split_ifs with h
  · simp [h, eq_comm]
  · simp [h]

mutual

/-- The element that comes back is written in the tokens of the written one. -/
theorem tokens_of_reread : ∀ (e : Json) {e' : Json}, e.reread d = some e' →
    ElementTokens d e' (lexemesOf d.format e)
  | .null, e', h => by
      cases h
      simp only [lexemesOf]
      exact .null
  | .boolean b, e', h => by
      cases h
      simp only [lexemesOf]
      cases b with
      | true => exact .boolean (v := ascii "true")
      | false => exact .boolean (v := ascii "false")
  | .number v, e', h => by
      simp only [Json.reread] at h
      simp only [lexemesOf]
      cases hx : d.parse (d.format v) with
      | ok x =>
          rw [hx] at h
          cases h
          exact .number hx
      | error c =>
          rw [hx] at h
          cases h
  | .string s, e', h => by
      cases h
      simp only [lexemesOf]
      exact .string
  | .array es, e', h => by
      simp only [Json.reread, Option.map_eq_some_iff] at h
      obtain ⟨es', hes, rfl⟩ := h
      rw [lexemesOf_array]
      exact .array (tokens_of_rereadElements es hes)
  | .object ms, e', h => by
      obtain ⟨ms', hms, hnodup, rfl⟩ := reread_object.mp h
      rw [lexemesOf_object]
      exact .object (tokens_of_rereadMembers ms hms) hnodup

theorem tokens_of_rereadElements : ∀ (es : List Json) {es' : List Json},
    Json.rereadElements d es = some es' →
    Listed (fun l : Lexeme => l.1 = .nextElement) (ElementTokens d) es' (listLexemes d.format es)
  | [], es', h => by
      cases h
      exact .nil
  | [e], es', h => by
      obtain ⟨e₁, es₁, he, hes, rfl⟩ := rereadElements_cons.mp h
      cases hes
      simp only [listLexemes, elementLexemes, List.append_nil]
      exact .single (tokens_of_reread e he)
  | e :: e₂ :: es, es', h => by
      obtain ⟨e₁, es₁, he, hes, rfl⟩ := rereadElements_cons.mp h
      have htail := tokens_of_rereadElements (e₂ :: es) hes
      obtain ⟨e₃, es₃, -, -, rfl⟩ := rereadElements_cons.mp hes
      rw [listLexemes_cons]
      exact .cons (tokens_of_reread e he) rfl htail

theorem tokens_of_rereadMembers : ∀ (ms : List (String × Json)) {ms' : Object},
    Json.rereadMembers d ms = some ms' →
    Listed (fun l : Lexeme => l.1 = .nextElement) (MemberTokens d) ms' (objectLexemes d.format ms)
  | [], ms', h => by
      cases h
      exact .nil
  | [(n, e)], ms', h => by
      obtain ⟨e₁, ms₁, he, hms, rfl⟩ := rereadMembers_cons.mp h
      cases hms
      simp only [objectLexemes, memberLexemes, List.append_nil]
      exact .single (.mk (tokens_of_reread e he))
  | (n, e) :: m₂ :: ms, ms', h => by
      obtain ⟨e₁, ms₁, he, hms, rfl⟩ := rereadMembers_cons.mp h
      have htail := tokens_of_rereadMembers (m₂ :: ms) hms
      obtain ⟨n₂, e₂⟩ := m₂
      obtain ⟨e₃, ms₃, -, -, rfl⟩ := rereadMembers_cons.mp hms
      have hmember : MemberTokens d (nameOf (Domoio.reread (ascii n)), e₁) ((.string,
          Domoio.reread (ascii n)) :: (.memberAssign, ascii ":") :: lexemesOf d.format e) :=
        .mk (tokens_of_reread e he)
      rw [objectLexemes_cons]
      exact .cons hmember rfl htail

end

/-- The first token of a written element is that of its kind. -/
theorem lexemesOf_head (e : Json) : ∃ v l, lexemesOf d.format e = (opens e, v) :: l := by
  cases e with
  | array es => exact ⟨_, _, lexemesOf_array d.format es⟩
  | object ms => exact ⟨_, _, lexemesOf_object d.format ms⟩
  | _ =>
      simp only [lexemesOf]
      exact ⟨_, _, rfl⟩

theorem opens_of_tokens {e : Json} {u rest l : List Lexeme} {x : Lexeme} (h : ElementTokens d e u)
    (heq : u ++ rest = x :: l) : opens e = x.1 := by
  obtain ⟨v, u', rfl⟩ := h.head
  cases heq
  rfl

/-- No element begins with a token that closes, a comma or a colon. -/
theorem opens_ne (e : Json) :
    opens e ≠ .arrayEnd ∧ opens e ≠ .objectEnd ∧ opens e ≠ .nextElement ∧ opens e ≠ .memberAssign := by
  cases e <;> simp [opens]

mutual

/-- An element read where a written one stands is the one that comes back, and takes all its tokens. -/
theorem reread_of_tokens : ∀ (e : Json) {e' : Json} {u rest rest' : List Lexeme},
    ElementTokens d e' u → u ++ rest = lexemesOf d.format e ++ rest' →
    u = lexemesOf d.format e ∧ e.reread d = some e'
  | .null, e', u, rest, rest', h, heq => by
      simp only [lexemesOf] at heq ⊢
      have hopens := opens_of_tokens h heq
      cases e' <;> cases hopens
      cases h
      cases heq
      exact ⟨rfl, rfl⟩
  | .boolean b, e', u, rest, rest', h, heq => by
      simp only [lexemesOf] at heq ⊢
      have hopens := opens_of_tokens h heq
      cases e' <;> cases hopens
      cases h
      cases heq
      exact ⟨rfl, by cases b <;> rfl⟩
  | .number v, e', u, rest, rest', h, heq => by
      simp only [lexemesOf] at heq ⊢
      have hopens := opens_of_tokens h heq
      cases e' <;> cases hopens
      cases h with
      | number hx =>
          cases heq
          exact ⟨rfl, by rw [Json.reread, hx]⟩
  | .string s, e', u, rest, rest', h, heq => by
      simp only [lexemesOf] at heq ⊢
      have hopens := opens_of_tokens h heq
      cases e' <;> cases hopens
      cases h
      cases heq
      exact ⟨rfl, rfl⟩
  | .array es, e', u, rest, rest', h, heq => by
      rw [lexemesOf_array] at heq ⊢
      have hopens := opens_of_tokens h heq
      cases e' <;> cases hopens
      cases h with
      | @array v v' _ w hlisted =>
          simp only [List.cons_append, List.append_assoc, List.nil_append, List.cons.injEq] at heq
          obtain ⟨hv, heq⟩ := heq
          obtain ⟨rfl, hes⟩ := rereadElements_of_tokens es hlisted heq
          cases List.append_cancel_left heq
          cases hv
          exact ⟨rfl, by rw [Json.reread, hes]; rfl⟩
  | .object ms, e', u, rest, rest', h, heq => by
      rw [lexemesOf_object] at heq ⊢
      have hopens := opens_of_tokens h heq
      cases e' <;> cases hopens
      cases h with
      | @object v v' _ w hlisted hnodup =>
          simp only [List.cons_append, List.append_assoc, List.nil_append, List.cons.injEq] at heq
          obtain ⟨hv, heq⟩ := heq
          obtain ⟨rfl, hms⟩ := rereadMembers_of_tokens ms hlisted heq
          cases List.append_cancel_left heq
          cases hv
          exact ⟨rfl, reread_object.mpr ⟨_, hms, hnodup, rfl⟩⟩

theorem rereadElements_of_tokens : ∀ (es : List Json) {es' : List Json} {w rest rest' : List Lexeme}
    {v v' : Bytes}, Listed (fun l : Lexeme => l.1 = .nextElement) (ElementTokens d) es' w →
    w ++ (.arrayEnd, v) :: rest = listLexemes d.format es ++ (.arrayEnd, v') :: rest' →
    w = listLexemes d.format es ∧ Json.rereadElements d es = some es'
  | [], es', w, rest, rest', v, v', h, heq => by
      cases h with
      | nil => exact ⟨rfl, rfl⟩
      | single hu => exact absurd (opens_of_tokens hu heq) (opens_ne _).1
      | cons hu ha _ =>
          rw [List.append_assoc] at heq
          exact absurd (opens_of_tokens hu heq) (opens_ne _).1
  | e :: es, es', w, rest, rest', v, v', h, heq => by
      rw [listLexemes, List.append_assoc] at heq
      cases h with
      | nil =>
          obtain ⟨x, l, hl⟩ := lexemesOf_head (d := d) e
          rw [hl] at heq
          exact absurd (congrArg Prod.fst (List.cons.inj heq).1).symm (opens_ne e).1
      | single hu =>
          obtain ⟨rfl, he⟩ := reread_of_tokens e hu heq
          have hrest := List.append_cancel_left heq
          cases es with
          | nil =>
              rw [listLexemes, elementLexemes, List.append_nil]
              exact ⟨rfl, rereadElements_cons.mpr ⟨_, [], he, rfl, rfl⟩⟩
          | cons e₂ es =>
              rw [elementLexemes_cons] at hrest
              cases hrest
      | @cons _ _ _ a u v hu ha hv =>
          rw [List.append_assoc] at heq
          obtain ⟨rfl, he⟩ := reread_of_tokens e hu heq
          have hrest := List.append_cancel_left heq
          cases es with
          | nil =>
              cases hrest
              cases ha
          | cons e₂ es =>
              rw [elementLexemes_cons] at hrest
              obtain ⟨rfl, hv'⟩ := List.cons.inj hrest
              obtain ⟨rfl, hes⟩ := rereadElements_of_tokens (e₂ :: es) hv hv'
              exact ⟨(listLexemes_cons ..).symm, rereadElements_cons.mpr ⟨_, _, he, hes, rfl⟩⟩

theorem rereadMembers_of_tokens : ∀ (ms : List (String × Json)) {ms' : Object}
    {w rest rest' : List Lexeme} {v v' : Bytes},
    Listed (fun l : Lexeme => l.1 = .nextElement) (MemberTokens d) ms' w →
    w ++ (.objectEnd, v) :: rest = objectLexemes d.format ms ++ (.objectEnd, v') :: rest' →
    w = objectLexemes d.format ms ∧ Json.rereadMembers d ms = some ms'
  | [], ms', w, rest, rest', v, v', h, heq => by
      cases h with
      | nil => exact ⟨rfl, rfl⟩
      | single hu =>
          cases hu
          cases heq
      | cons hu _ _ =>
          cases hu
          cases heq
  | (n, e) :: ms, ms', w, rest, rest', v, v', h, heq => by
      rw [objectLexemes, List.cons_append, List.cons_append, List.append_assoc] at heq
      cases h with
      | nil => cases heq
      | single hm =>
          obtain ⟨hu⟩ := hm
          simp only [List.cons_append, List.cons.injEq] at heq
          obtain ⟨hname, hcolon, heq⟩ := heq
          obtain ⟨rfl, he⟩ := reread_of_tokens e hu heq
          have hrest := List.append_cancel_left heq
          cases hname
          cases hcolon
          cases ms with
          | nil =>
              rw [objectLexemes, memberLexemes, List.append_nil]
              exact ⟨rfl, rereadMembers_cons.mpr ⟨_, [], he, rfl, rfl⟩⟩
          | cons m₂ ms =>
              rw [memberLexemes_cons] at hrest
              cases hrest
      | @cons _ _ _ a u v hm ha hv =>
          obtain ⟨hu⟩ := hm
          simp only [List.cons_append, List.append_assoc, List.cons.injEq] at heq
          obtain ⟨hname, hcolon, heq⟩ := heq
          obtain ⟨rfl, he⟩ := reread_of_tokens e hu heq
          have hrest := List.append_cancel_left heq
          cases hname
          cases hcolon
          cases ms with
          | nil =>
              cases hrest
              cases ha
          | cons m₂ ms =>
              rw [memberLexemes_cons] at hrest
              obtain ⟨rfl, hv'⟩ := List.cons.inj hrest
              obtain ⟨rfl, hms⟩ := rereadMembers_of_tokens (m₂ :: ms) hv hv'
              exact ⟨(objectLexemes_cons ..).symm, rereadMembers_cons.mpr ⟨_, _, he, hms, rfl⟩⟩

end

/-- The grammar reads the tokens of a written element as the element that comes back, and as no other. -/
theorem tokens_iff {e e' : Json} :
    ElementTokens d e' (lexemesOf d.format e) ↔ e.reread d = some e' := by
  constructor
  · intro h
    have heq : lexemesOf d.format e ++ [] = lexemesOf d.format e ++ [] := rfl
    exact (reread_of_tokens e h heq).2
  · exact tokens_of_reread e

end Tokens

/-! ## 3. Documents -/

/-- What the reader makes of a written document is the document that comes back, where there is one. -/
theorem read_write_iff {d : Doubles} {o o' : Object} :
    Reader.read d (Writer.element d.format (.object o)) = .ok o' ↔
      (Json.object o).reread d = some (.object o') := by
  have hwritten : LexemesSpelling (lexemesOf d.format (.object o))
      (Writer.element d.format (.object o)) := by
    have := spelling_element (d := d) (.object o) (by simp [StopsAt]) LexemesSpelling.nil
    rwa [List.append_nil, List.append_nil] at this
  rw [read_iff]
  constructor
  · rintro ⟨lexemes, hlexemes, h⟩
    rw [hlexemes.unique hwritten] at h
    exact tokens_iff.mp h
  · intro h
    exact ⟨_, hwritten, tokens_iff.mpr h⟩

/-- The JSON library, with the formatting of doubles left open. -/
def Doubles.cajun (d : Doubles) : Cajun where
  format := d.format
  format_plain v c hc := (d.format_numeric v c hc).2
  read text := (Reader.read d text).mapError fun _ => .parse

theorem Doubles.cajun_read_iff {d : Doubles} {text : Bytes} {o : Object} :
    d.cajun.read text = .ok o ↔ Reader.read d text = .ok o := by
  change (Reader.read d text).mapError _ = _ ↔ _
  cases Reader.read d text <;> simp [Except.mapError]

/-! ## 4. Documents that come back unchanged -/

mutual

/-- The element comes back as it was: its strings are encoded in the shortest way, its names are bytes
    and differ, its numbers are doubles. -/
def Json.Stable (d : Doubles) : Json → Prop
  | .null | .boolean _ => True
  | .number v => d.parse (d.format v) = .ok v
  | .string s => shortest s = true
  | .array es => Json.StableElements d es
  | .object ms => Json.StableMembers d ms ∧ (ms.map Prod.fst).Nodup

def Json.StableElements (d : Doubles) : List Json → Prop
  | [] => True
  | e :: es => e.Stable d ∧ Json.StableElements d es

def Json.StableMembers (d : Doubles) : List (String × Json) → Prop
  | [] => True
  | (n, e) :: ms =>
      (nameOf (ascii n) = n ∧ shortest (ascii n) = true) ∧ e.Stable d ∧ Json.StableMembers d ms

end

theorem ascii_nameOf (b : Bytes) : ascii (nameOf b) = b := by
  have hbyte : ∀ c : UInt8, UInt8.ofNat (Char.ofNat c.toNat).toNat = c :=
    forall_byte (by decide +kernel)
  rw [ascii, nameOf, String.toList_ofList, List.map_map]
  exact (List.map_congr_left fun c _ => hbyte c).trans (List.map_id b)

theorem nameOf_reread_iff {n : String} :
    nameOf (reread (ascii n)) = n ↔ nameOf (ascii n) = n ∧ shortest (ascii n) = true := by
  constructor
  · intro h
    have hascii : reread (ascii n) = ascii n := (ascii_nameOf _).symm.trans (congrArg ascii h)
    exact ⟨hascii ▸ h, reread_eq_self_iff.mp hascii⟩
  · rintro ⟨hn, hs⟩
    rw [reread_eq_self_iff.mpr hs, hn]

mutual

theorem reread_self_iff {d : Doubles} : ∀ e : Json, e.reread d = some e ↔ e.Stable d
  | .null => by simp [Json.reread, Json.Stable]
  | .boolean b => by simp [Json.reread, Json.Stable]
  | .number v => by
      simp only [Json.reread, Json.Stable]
      cases d.parse (d.format v) <;> simp
  | .string s => by simp [Json.reread, Json.Stable, reread_eq_self_iff]
  | .array es => by
      simp only [Json.reread, Json.Stable, Option.map_eq_some_iff, Json.array.injEq,
        exists_eq_right]
      exact rereadElements_self_iff es
  | .object ms => by
      rw [reread_object, Json.Stable]
      simp only [Json.object.injEq]
      constructor
      · rintro ⟨_, hms, hnodup, rfl⟩
        exact ⟨(rereadMembers_self_iff ms).mp hms, hnodup⟩
      · rintro ⟨hms, hnodup⟩
        exact ⟨ms, (rereadMembers_self_iff ms).mpr hms, hnodup, rfl⟩

theorem rereadElements_self_iff {d : Doubles} : ∀ es : List Json,
    Json.rereadElements d es = some es ↔ Json.StableElements d es
  | [] => by simp [Json.rereadElements, Json.StableElements]
  | e :: es => by
      rw [rereadElements_cons, Json.StableElements, ← reread_self_iff e, ← rereadElements_self_iff es]
      constructor
      · rintro ⟨_, _, he, hes, h⟩
        cases h
        exact ⟨he, hes⟩
      · rintro ⟨he, hes⟩
        exact ⟨e, es, he, hes, rfl⟩

theorem rereadMembers_self_iff {d : Doubles} : ∀ ms : List (String × Json),
    Json.rereadMembers d ms = some ms ↔ Json.StableMembers d ms
  | [] => by simp [Json.rereadMembers, Json.StableMembers]
  | (n, e) :: ms => by
      rw [rereadMembers_cons, Json.StableMembers, ← reread_self_iff e, ← rereadMembers_self_iff ms,
        ← nameOf_reread_iff]
      constructor
      · rintro ⟨_, _, he, hms, h⟩
        obtain ⟨hm, hms'⟩ := List.cons.inj h
        cases hms'
        obtain ⟨hn, rfl⟩ := Prod.mk.inj hm
        exact ⟨hn.symm, he, hms⟩
      · rintro ⟨hn, he, hms⟩
        exact ⟨e, ms, he, hms, by rw [hn]⟩

end

mutual

/-- The element that comes back comes back as it is. -/
theorem stable_reread {d : Doubles} : ∀ (e : Json) {e' : Json}, e.reread d = some e' → e'.Stable d
  | .null, e', h => by
      cases h
      simp only [Json.Stable]
  | .boolean b, e', h => by
      cases h
      simp only [Json.Stable]
  | .number v, e', h => by
      simp only [Json.reread] at h
      cases hx : d.parse (d.format v) with
      | ok x =>
          rw [hx] at h
          cases h
          rw [Json.Stable]
          exact d.parse_format _ x hx
      | error c =>
          rw [hx] at h
          cases h
  | .string s, e', h => by
      cases h
      rw [Json.Stable]
      exact shortest_reread s
  | .array es, e', h => by
      simp only [Json.reread, Option.map_eq_some_iff] at h
      obtain ⟨es', hes, rfl⟩ := h
      rw [Json.Stable]
      exact stable_rereadElements es hes
  | .object ms, e', h => by
      obtain ⟨ms', hms, hnodup, rfl⟩ := reread_object.mp h
      rw [Json.Stable]
      exact ⟨stable_rereadMembers ms hms, hnodup⟩

theorem stable_rereadElements {d : Doubles} : ∀ (es : List Json) {es' : List Json},
    Json.rereadElements d es = some es' → Json.StableElements d es'
  | [], es', h => by
      cases h
      simp only [Json.StableElements]
  | e :: es, es', h => by
      obtain ⟨e₁, es₁, he, hes, rfl⟩ := rereadElements_cons.mp h
      rw [Json.StableElements]
      exact ⟨stable_reread e he, stable_rereadElements es hes⟩

theorem stable_rereadMembers {d : Doubles} : ∀ (ms : List (String × Json)) {ms' : Object},
    Json.rereadMembers d ms = some ms' → Json.StableMembers d ms'
  | [], ms', h => by
      cases h
      simp only [Json.StableMembers]
  | (n, e) :: ms, ms', h => by
      obtain ⟨e₁, ms₁, he, hms, rfl⟩ := rereadMembers_cons.mp h
      rw [Json.StableMembers, ascii_nameOf]
      exact ⟨⟨rfl, shortest_reread _⟩, stable_reread e he, stable_rereadMembers ms hms⟩

end

theorem Doubles.read_write_iff {d : Doubles} {o o' : Object} :
    d.cajun.read (d.cajun.write o) = .ok o' ↔ (Json.object o).reread d = some (.object o') :=
  Doubles.cajun_read_iff.trans Domoio.read_write_iff

theorem Doubles.reproduces_iff {d : Doubles} {o : Object} :
    d.cajun.Reproduces o ↔ (Json.object o).Stable d :=
  Doubles.read_write_iff.trans (reread_self_iff _)

/-- What the library reads of a document it wrote is the document that comes back; it is the written one
    exactly where that is stable, and what was read once is. -/
theorem write_read_exact (d : Doubles) (o : Object) :
    (∀ o', d.cajun.read (d.cajun.write o) = .ok o' ↔ (Json.object o).reread d = some (.object o')) ∧
      (d.cajun.Reproduces o ↔ (Json.object o).Stable d) ∧
      ∀ o', d.cajun.read (d.cajun.write o) = .ok o' → d.cajun.Reproduces o' :=
  ⟨fun _ => Doubles.read_write_iff, Doubles.reproduces_iff, fun _ ho' =>
    Doubles.reproduces_iff.mpr (stable_reread _ (Doubles.read_write_iff.mp ho'))⟩

/-! ## 5. Whole numbers -/

theorem decimal_digits {n : Int32} {c : UInt8} (hc : c ∈ decimal n) : c = 45 ∨ 48 ≤ c ∧ c ≤ 57 := by
  obtain ⟨x, hx, rfl⟩ := List.mem_map.mp hc
  rcases sign_or_digit_of_mem hx with rfl | hdigit
  · exact .inl rfl
  · obtain ⟨hlo, hhi⟩ := isDigit_bounds hdigit
    have hbyte : (UInt8.ofNat x.toNat).toNat = x.toNat := by
      rw [UInt8.toNat_ofNat']
      omega
    exact .inr ⟨UInt8.le_iff_toNat_le.mpr (by rw [hbyte]; exact hlo),
      UInt8.le_iff_toNat_le.mpr (by rw [hbyte]; exact hhi)⟩

/-- The doubles that are an `int`. -/
def wholeDoubles : Doubles where
  format v := decimal (intOfDouble v)
  parse text :=
    if text = decimal (atoi text) then .ok (doubleOfInt (atoi text)) else .error (text.headD 255)
  format_head v := by
    cases h : decimal (intOfDouble v) with
    | nil => cases h ▸ numeral_decimal (intOfDouble v) with | plain _ _ hne => exact absurd rfl hne
    | cons c cs => exact ⟨c, cs, rfl, decimal_digits (h ▸ List.mem_cons_self)⟩
  format_numeric v c hc :=
    ⟨isNumeric_digit (decimal_digits hc), nulFree_decimal _ c hc⟩
  parse_format text v h := by
    split at h
    · cases h
      rw [intOfDouble_doubleOfInt, atoi_decimal, if_pos rfl]
    · cases h
  parse_format_int n := by rw [intOfDouble_doubleOfInt, atoi_decimal, if_pos rfl]

end Domoio
