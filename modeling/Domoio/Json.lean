import Domoio.Lib.CText

/-
  File:      Domoio/Json.lean
  Subject:   The vendored JSON elements, their conversions and the writer (vendor/include/cajun).

  An element is a tree; a number is the exact value of its double. `operator[]` of a non-constant
  object inserts a Null member where the name is missing, and the non-constant casts replace an
  element of another type by that type's default: both are read here as `get` followed by a
  conversion, and written back with `set`.

  The reader and the formatting of doubles stay parameters (`Cajun`); what the program relies on
  is that reading a written document gives the document back (`Cajun.Reproduces`).
-/

namespace Domoio

open Lib

/-- `json::UnknownElement`. -/
inductive Json where
  | null
  | boolean (value : Bool)
  | number (value : Rat)
  | string (value : Bytes)
  | array (elements : List Json)
  | object (members : List (String × Json))

/-- `json::Object`: the members in their order. -/
abbrev Object := List (String × Json)

/-- `json::Exception` and its kinds: a cast of a constant element to another type, and a text the
    reader rejects. -/
inductive JsonException where
  | badCast
  | parse
  deriving DecidableEq, Repr

/-! ## 1. Conversions -/

namespace Json

/-- `operator String&`. -/
def toStr : Json → Bytes
  | .string s => s
  | _ => []

/-- `operator Number&`. -/
def toNumber : Json → Rat
  | .number v => v
  | _ => 0

/-- `operator Boolean&`. -/
def toBoolean : Json → Bool
  | .boolean b => b
  | _ => false

/-- `operator Object&`. -/
def toObject : Json → Object
  | .object o => o
  | _ => []

/-- `operator Array&`. -/
def toArray : Json → List Json
  | .array a => a
  | _ => []

/-- `operator const Object&`: throws on another type. -/
def castObject : Json → Except JsonException Object
  | .object o => .ok o
  | _ => .error .badCast

end Json

/-- A double assigned to an `int`: truncated toward zero. Outside the range of `int` the value is
    undefined in C++; the conversion instruction of x86-64 gives the smallest `int`. -/
def intOfDouble (v : Rat) : Int32 :=
  let n := v.num.tdiv v.den
  if -2 ^ 31 ≤ n ∧ n < 2 ^ 31 then Int32.ofInt n else Int32.minValue

/-- An `int` as a double. -/
def doubleOfInt (n : Int32) : Rat := (n.toInt : Rat)

@[simp] theorem intOfDouble_doubleOfInt (n : Int32) : intOfDouble (doubleOfInt n) = n := by
  have hlo := Int32.le_toInt n
  have hhi := Int32.toInt_lt n
  have hnum : (doubleOfInt n).num = n.toInt := rfl
  have hden : (doubleOfInt n).den = 1 := rfl
  have htdiv : (doubleOfInt n).num.tdiv (doubleOfInt n).den = n.toInt := by simp [hnum, hden]
  unfold intOfDouble
  rw [htdiv, if_pos ⟨hlo, hhi⟩, Int32.ofInt_toInt]

/-! ## 2. Objects -/

namespace Object

/-- The element `operator[]` refers to. -/
def get (o : Object) (name : String) : Json := (o.lookup name).getD .null

/-- The object after `o[name] = e`: the first member of that name, else a new last one. -/
def set : Object → String → Json → Object
  | [], name, e => [(name, e)]
  | (n, x) :: o, name, e => if n = name then (n, e) :: o else (n, x) :: set o name e

theorem lookup_cons_eq (n : String) (x : Json) (o : Object) (m : String) :
    List.lookup m ((n, x) :: o) = if m = n then some x else o.lookup m := by
  by_cases h : m = n
  · simp [List.lookup, h]
  · have hb : (m == n) = false := by simpa using h
    simp [List.lookup, hb, h]

theorem lookup_set (o : Object) (name m : String) (e : Json) :
    List.lookup m (o.set name e) = if m = name then some e else List.lookup m o := by
  induction o with
  | nil => simp [set, lookup_cons_eq]
  | cons p o ih =>
      obtain ⟨n, x⟩ := p
      by_cases hn : n = name
      · subst hn
        by_cases h : m = n <;> simp [set, lookup_cons_eq, h]
      · by_cases h : m = n
        · subst h
          simp [set, hn]
        · simp [set, hn, lookup_cons_eq, h, ih]

@[simp] theorem get_set_self (o : Object) (name : String) (e : Json) :
    (o.set name e).get name = e := by
  simp [get, lookup_set]

@[simp] theorem get_set_ne (o : Object) {name m : String} (h : m ≠ name) (e : Json) :
    (o.set name e).get m = o.get m := by
  simp [get, lookup_set, h]

end Object

/-! ## 3. The writer -/

namespace Writer

/-- `\u` and four hexadecimal digits. -/
def escapeUnicode (x : Nat) : Bytes :=
  let digit (n : Nat) : UInt8 := if n < 10 then UInt8.ofNat (48 + n) else UInt8.ofNat (87 + n)
  [92, 117, digit (x / 4096 % 16), digit (x / 256 % 16), digit (x / 16 % 16), digit (x % 16)]

/-- The escapes of single characters. -/
def escapeChar (c : UInt8) : Bytes :=
  if c = 34 then [92, 34]
  else if c = 92 then [92, 92]
  else if c = 8 then [92, 98]
  else if c = 12 then [92, 102]
  else if c = 10 then [92, 110]
  else if c = 13 then [92, 114]
  else if c = 9 then [92, 116]
  else [c]

/-- The characters of a string: two- and three-byte UTF-8 sequences are written as `\u` escapes,
    every other byte on its own. -/
def chars : Bytes → Bytes
  | [] => []
  | [c] => escapeChar c
  | [c, d] =>
      if c &&& 0xe0 = 0xc0 ∧ d &&& 0xc0 = 0x80 then
        escapeUnicode ((c &&& 0x1f).toNat * 64 + (d &&& 0x3f).toNat)
      else escapeChar c ++ chars [d]
  | c :: d :: e :: cs =>
      if c &&& 0xe0 = 0xc0 ∧ d &&& 0xc0 = 0x80 then
        escapeUnicode ((c &&& 0x1f).toNat * 64 + (d &&& 0x3f).toNat) ++ chars (e :: cs)
      else if c &&& 0xf0 = 0xe0 ∧ d &&& 0xc0 = 0x80 ∧ e &&& 0xc0 = 0x80 then
        escapeUnicode ((c &&& 0x0f).toNat * 4096 + (d &&& 0x3f).toNat * 64 + (e &&& 0x3f).toNat)
          ++ chars cs
      else escapeChar c ++ chars (d :: e :: cs)

/-- `Write_i(const String&)`. -/
def string (s : Bytes) : Bytes := 34 :: chars s ++ [34]

mutual

/-- `Write_i(const UnknownElement&)`, without the pretty printing. -/
def element (format : Rat → Bytes) : Json → Bytes
  | .null => ascii "null"
  | .boolean b => ascii (if b then "true" else "false")
  | .number v => format v
  | .string s => string s
  | .array [] => ascii "[]"
  | .array (e :: es) => ascii "[" ++ element format e ++ elements format es ++ ascii "]"
  | .object [] => ascii "\x7b\x7d"
  | .object ((n, e) :: ms) =>
      ascii "\x7b" ++ string (ascii n) ++ ascii " : " ++ element format e ++ members format ms
        ++ ascii "\x7d"

/-- The elements behind the first one. -/
def elements (format : Rat → Bytes) : List Json → Bytes
  | [] => []
  | e :: es => ascii ", " ++ element format e ++ elements format es

/-- The members behind the first one. -/
def members (format : Rat → Bytes) : List (String × Json) → Bytes
  | [] => []
  | (n, e) :: ms =>
      ascii ", " ++ string (ascii n) ++ ascii " : " ++ element format e ++ members format ms

end

end Writer

/-- What stays open of the JSON library: how a double is printed with twenty digits, and the
    reader of documents. -/
structure Cajun where
  format : Rat → Bytes
  format_plain : ∀ v, NulFree (format v)
  read : Bytes → Except JsonException Object

/-- `json::Writer::Write` of an object. -/
def Cajun.write (c : Cajun) (o : Object) : Bytes := Writer.element c.format (.object o)

/-- `json::Writer::Write` of an array. -/
def Cajun.writeArray (c : Cajun) (a : List Json) : Bytes := Writer.element c.format (.array a)

/-- Reading the written document gives the document back. -/
def Cajun.Reproduces (c : Cajun) (o : Object) : Prop := c.read (c.write o) = .ok o

/-! ## 4. Written documents are C strings -/

mutual

/-- No string in the element has a NUL. -/
def Json.plain : Json → Bool
  | .null | .boolean _ | .number _ => true
  | .string s => decide (NulFree s)
  | .array es => Json.plainElements es
  | .object ms => Json.plainMembers ms

def Json.plainElements : List Json → Bool
  | [] => true
  | e :: es => e.plain && Json.plainElements es

def Json.plainMembers : List (String × Json) → Bool
  | [] => true
  | (n, e) :: ms => decide (NulFree (ascii n)) && e.plain && Json.plainMembers ms

end

namespace Writer

theorem nulFree_append {a b : Bytes} : NulFree (a ++ b) ↔ NulFree a ∧ NulFree b := by
  simp [NulFree, or_imp, forall_and]

theorem nulFree_cons {c : UInt8} {b : Bytes} : NulFree (c :: b) ↔ c ≠ 0 ∧ NulFree b := by
  simp [NulFree]

theorem nulFree_escapeChar {c : UInt8} (hc : c ≠ 0) : NulFree (escapeChar c) := by
  unfold escapeChar
  repeat' split
  all_goals first | decide | simpa [NulFree] using hc

theorem nulFree_escapeUnicode (x : Nat) : NulFree (escapeUnicode x) := by
  have hdigit : ∀ n < 16, (if n < 10 then UInt8.ofNat (48 + n) else UInt8.ofNat (87 + n)) ≠ 0 := by
    decide
  intro c hc
  simp only [escapeUnicode, List.mem_cons, List.not_mem_nil, or_false] at hc
  rcases hc with rfl | rfl | rfl | rfl | rfl | rfl
  · decide
  · decide
  · exact hdigit _ (Nat.mod_lt _ (by decide))
  · exact hdigit _ (Nat.mod_lt _ (by decide))
  · exact hdigit _ (Nat.mod_lt _ (by decide))
  · exact hdigit _ (Nat.mod_lt _ (by decide))

theorem nulFree_chars {s : Bytes} (hs : NulFree s) : NulFree (chars s) := by
  fun_induction chars s with
  | case1 => exact hs
  | case2 c => exact nulFree_escapeChar (nulFree_cons.mp hs).1
  | case3 c d h => exact nulFree_escapeUnicode _
  | case4 c d h ih =>
      obtain ⟨hc, hd⟩ := nulFree_cons.mp hs
      exact nulFree_append.mpr ⟨nulFree_escapeChar hc, ih hd⟩
  | case5 c d e cs h ih =>
      obtain ⟨-, hd⟩ := nulFree_cons.mp hs
      exact nulFree_append.mpr ⟨nulFree_escapeUnicode _, ih (nulFree_cons.mp hd).2⟩
  | case6 c d e cs h h' ih =>
      obtain ⟨-, hd⟩ := nulFree_cons.mp hs
      obtain ⟨-, he⟩ := nulFree_cons.mp hd
      exact nulFree_append.mpr ⟨nulFree_escapeUnicode _, ih (nulFree_cons.mp he).2⟩
  | case7 c d e cs h h' ih =>
      obtain ⟨hc, hd⟩ := nulFree_cons.mp hs
      exact nulFree_append.mpr ⟨nulFree_escapeChar hc, ih hd⟩

theorem nulFree_string {s : Bytes} (hs : NulFree s) : NulFree (string s) := by
  unfold string
  rw [nulFree_append, nulFree_cons]
  exact ⟨⟨by decide, nulFree_chars hs⟩, by decide⟩

variable {format : Rat → Bytes}

mutual

/-- A plain element is written without a NUL. -/
theorem nulFree_element (hf : ∀ v, NulFree (format v)) : ∀ e : Json, e.plain = true →
    NulFree (element format e)
  | .null, _ => by simp only [element]; decide
  | .boolean b, _ => by simp only [element]; cases b <;> decide
  | .number v, _ => by simp only [element]; exact hf v
  | .string s, h => by
      simp only [Json.plain, decide_eq_true_eq] at h
      simp only [element]
      exact nulFree_string h
  | .array [], _ => by simp only [element]; decide
  | .array (e :: es), h => by
      simp only [Json.plain, Json.plainElements, Bool.and_eq_true] at h
      simp only [element, nulFree_append]
      exact ⟨⟨⟨by decide, nulFree_element hf e h.1⟩, nulFree_elements hf es h.2⟩, by decide⟩
  | .object [], _ => by simp only [element]; decide
  | .object ((n, e) :: ms), h => by
      simp only [Json.plain, Json.plainMembers, Bool.and_eq_true, decide_eq_true_eq] at h
      simp only [element, nulFree_append]
      exact ⟨⟨⟨⟨⟨by decide, nulFree_string h.1.1⟩, by decide⟩, nulFree_element hf e h.1.2⟩,
        nulFree_members hf ms h.2⟩, by decide⟩

theorem nulFree_elements (hf : ∀ v, NulFree (format v)) : ∀ es : List Json,
    Json.plainElements es = true → NulFree (elements format es)
  | [], _ => by simp only [elements]; decide
  | e :: es, h => by
      simp only [Json.plainElements, Bool.and_eq_true] at h
      simp only [elements, nulFree_append]
      exact ⟨⟨by decide, nulFree_element hf e h.1⟩, nulFree_elements hf es h.2⟩

theorem nulFree_members (hf : ∀ v, NulFree (format v)) : ∀ ms : List (String × Json),
    Json.plainMembers ms = true → NulFree (members format ms)
  | [], _ => by simp only [members]; decide
  | (n, e) :: ms, h => by
      simp only [Json.plainMembers, Bool.and_eq_true, decide_eq_true_eq] at h
      simp only [members, nulFree_append]
      exact ⟨⟨⟨⟨by decide, nulFree_string h.1.1⟩, by decide⟩, nulFree_element hf e h.1.2⟩,
        nulFree_members hf ms h.2⟩

end

end Writer

/-- A plain document is written as a C string. -/
theorem Cajun.nulFree_write (c : Cajun) {o : Object} (ho : Json.plainMembers o = true) :
    NulFree (c.write o) :=
  Writer.nulFree_element c.format_plain (.object o) ho

/-- Setting a member to a plain element keeps an object plain. -/
theorem Object.plain_set {o : Object} {name : String} {e : Json}
    (ho : Json.plainMembers o = true) (hn : NulFree (ascii name)) (he : e.plain = true) :
    Json.plainMembers (o.set name e) = true := by
  induction o with
  | nil => simp [Object.set, Json.plainMembers, hn, he]
  | cons p o ih =>
      obtain ⟨n, x⟩ := p
      simp only [Json.plainMembers, Bool.and_eq_true, decide_eq_true_eq] at ho
      unfold Object.set
      split
      · simp [Json.plainMembers, ho.1.1, he, ho.2]
      · simp [Json.plainMembers, ho.1.1, ho.1.2, ih ho.2]

end Domoio
