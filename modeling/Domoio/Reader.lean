import Domoio.Lib.Reading
import Domoio.Json

/-
  File:      Domoio/Reader.lean
  Subject:   The vendored JSON reader (vendor/include/cajun/json/reader.inl).

  Reading has two phases: the text is scanned into tokens, the tokens are parsed into elements. A loop
  has as fuel one more than what is left to read, and `outOfFuel` is no exception of the source. What an
  `istringstream` takes a NUMBER token for stays a parameter (`Doubles`).
-/

namespace Domoio

open Lib

namespace Reader

/-- `Reader::Location`. -/
structure Location where
  line : UInt32 := 0
  lineOffset : UInt32 := 0
  docOffset : UInt32 := 0
  deriving DecidableEq, Repr

/-- The location behind a character. -/
def Location.next (l : Location) (c : UInt8) : Location :=
  if c = 10 then { line := l.line + 1, lineOffset := 0, docOffset := l.docOffset + 1 }
  else { l with lineOffset := l.lineOffset + 1, docOffset := l.docOffset + 1 }

/-- `Token::Type`. -/
inductive TokenType where
  | objectBegin | objectEnd | arrayBegin | arrayEnd | nextElement | memberAssign
  | string | number | boolean | null
  deriving DecidableEq, Repr

/-- `Reader::Token`. -/
structure Token where
  type : TokenType
  value : Bytes
  locBegin : Location
  locEnd : Location
  deriving DecidableEq, Repr

/-- `ScanException`, `ParseException`, and the last token of an empty vector, which is undefined. -/
inductive ReadException where
  | scan (message : Bytes) (error : Location)
  | parse (message : Bytes) (tokenBegin tokenEnd : Location)
  | emptyTokens
  | outOfFuel
  deriving DecidableEq, Repr

/-! ## 1. Scanning -/

/-- `Reader::InputStream`: the location is that of the characters read. -/
abbrev InputStream := Source Location UInt8

abbrev Scan := Reading Location UInt8 ReadException

namespace Scan

/-- `EOS`. -/
def eos : Scan Bool := Reading.look fun s => s.rest.isEmpty

/-- `Get`: at the end of the stream EOF, as a `char`. -/
def get : Scan UInt8 := Reading.get Location.next 255

/-- `Peek`. -/
def peek : Scan UInt8 := Reading.look fun s => s.rest.headD 255

/-- `GetLocation`. -/
def getLocation : Scan Location := Reading.look fun s => s.behind

/-- `throw ScanException(sMessage, inputStream.GetLocation())`. -/
def fail {β : Type} (message : Bytes) : Scan β := fun s => .error (.scan message s.behind)

end Scan

/-- `EatWhiteSpace`. -/
def eatWhiteSpace : Scan Unit := discard (Reading.readWhile Location.next isSpace)

/-- The loop of `MatchExpectedString` over what is left of the expected string. -/
def matchRest (expected : Bytes) : Bytes → Scan Unit
  | [] => pure ()
  | e :: es => do
      if ← Scan.eos then
        Scan.fail (ascii "Expected string: " ++ expected)
      else
        let c ← Scan.get
        if c = e then matchRest expected es
        else Scan.fail (ascii "Expected string: " ++ expected)

/-- `MatchExpectedString`. -/
def matchExpectedString (expected : Bytes) : Scan Bytes := do
  matchRest expected expected
  return expected

/-- The value of a hexadecimal digit. -/
def hexValue (c : UInt8) : Option Nat :=
  if 48 ≤ c ∧ c ≤ 57 then some (c.toNat - 48)
  else if 97 ≤ c ∧ c ≤ 102 then some (c.toNat - 97 + 10)
  else if 65 ≤ c ∧ c ≤ 70 then some (c.toNat - 65 + 10)
  else none

/-- The next `n` characters as hexadecimal digits behind `x`; whether there are any left is not asked. -/
def hexDigits : Nat → Nat → Scan Nat
  | 0, x => pure x
  | n + 1, x => do
      let c ← Scan.get
      match hexValue c with
      | some d => hexDigits n (x * 16 + d)
      | none => Scan.fail (ascii "Unrecognized hexadecimal character found in string: " ++ [c])

/-- `x` encoded as UTF-8 in one to three bytes. -/
def utf8 (x : Nat) : Bytes :=
  if x < 0x80 then [UInt8.ofNat x]
  else if x < 0x800 then [UInt8.ofNat (0xc0 + x / 64), UInt8.ofNat (0x80 + x % 64)]
  else [UInt8.ofNat (0xe0 + x / 4096), UInt8.ofNat (0x80 + x / 64 % 64), UInt8.ofNat (0x80 + x % 64)]

/-- What a character stands for behind a backslash. -/
def unescape (c : UInt8) : Option UInt8 :=
  if c = 47 then some 47
  else if c = 34 then some 34
  else if c = 92 then some 92
  else if c = 98 then some 8
  else if c = 102 then some 12
  else if c = 110 then some 10
  else if c = 114 then some 13
  else if c = 116 then some 9
  else none

/-- The `switch` behind a backslash. -/
def matchEscape (string : Bytes) : Scan Bytes := do
  let c ← Scan.get
  match unescape c with
  | some b => return string ++ [b]
  | none =>
      if c = 117 then
        let x ← hexDigits 4 0
        return string ++ utf8 x
      else Scan.fail (ascii "Unrecognized escape sequence found in string: \\" ++ [c])

/-- One pass of the loop of `MatchString`. -/
def matchChar (string : Bytes) : Scan Bytes := do
  let c ← Scan.get
  let eos ← Scan.eos
  if c = 92 ∧ eos = false then matchEscape string
  else return string ++ [c]

/-- `MatchString`. -/
def matchString (fuel : Nat) : Scan Bytes := do
  discard (matchExpectedString [34])
  let string ← Reading.whileLoop .outOfFuel (fun _ rest => rest.head?.any (· ≠ 34)) matchChar fuel []
  discard (matchExpectedString [34])
  return string

/-- The characters `MatchNumber` takes: those of `"0123456789.eE-+"`, with the NUL that ends it. -/
def isNumeric (c : UInt8) : Bool := c ∈ ascii "0123456789.eE-+" ++ [0]

/-- `MatchNumber`. -/
def matchNumber : Scan Bytes := Reading.readWhile Location.next isNumeric

/-- The tokens that are one word, by their first character. -/
def literal (c : UInt8) : Option (TokenType × Bytes) :=
  if c = 123 then some (.objectBegin, ascii "\x7b")
  else if c = 125 then some (.objectEnd, ascii "\x7d")
  else if c = 91 then some (.arrayBegin, ascii "[")
  else if c = 93 then some (.arrayEnd, ascii "]")
  else if c = 44 then some (.nextElement, ascii ",")
  else if c = 58 then some (.memberAssign, ascii ":")
  else if c = 116 then some (.boolean, ascii "true")
  else if c = 102 then some (.boolean, ascii "false")
  else if c = 110 then some (.null, ascii "null")
  else none

/-- The `switch` over the character peeked. -/
def matchToken (fuel : Nat) (c : UInt8) : Scan (TokenType × Bytes) :=
  match literal c with
  | some (type, word) => (type, ·) <$> matchExpectedString word
  | none =>
      if c = 34 then (.string, ·) <$> matchString fuel
      else if c = 45 ∨ 48 ≤ c ∧ c ≤ 57 then (.number, ·) <$> matchNumber
      else Scan.fail (ascii "Unexpected character in stream: " ++ [c])

/-- One pass of the loop of `Scan`, from the peeked character to the next one. -/
def scanToken (fuel : Nat) (tokens : List Token) : Scan (List Token) := do
  let locBegin ← Scan.getLocation
  let c ← Scan.peek
  let (type, value) ← matchToken fuel c
  let locEnd ← Scan.getLocation
  eatWhiteSpace
  return tokens ++ [⟨type, value, locBegin, locEnd⟩]

/-- `Scan`: white space is eaten before each time the end of the stream is asked for. -/
def scan (fuel : Nat) : Scan (List Token) := do
  eatWhiteSpace
  Reading.whileLoop .outOfFuel (fun _ rest => !rest.isEmpty) (scanToken fuel) fuel []

/-! ## 2. Parsing -/

/-- `Reader::TokenStream`: all tokens, and those from the current one on. -/
abbrev TokenStream := Source (List Token) Token

abbrev Parse := Reading (List Token) Token ReadException

/-- The vector of tokens stays as it is. -/
def sameTokens (tokens : List Token) (_ : Token) : List Token := tokens

namespace Parse

/-- `throw ParseException(sMessage, token.locBegin, token.locEnd)`. -/
def fail {β : Type} (message : Bytes) (token : Token) : Parse β :=
  fun _ => .error (.parse message token.locBegin token.locEnd)

/-- `Peek`: at the end the exception points to the last token of the vector. -/
def peek : Parse Token := fun s =>
  match s.rest with
  | token :: _ => .ok (token, s)
  | [] =>
      match s.behind.getLast? with
      | some lastToken => fail (ascii "Unexpected end of token stream") lastToken s
      | none => .error .emptyTokens

/-- `Get`. -/
def get : Parse Token := do
  let token ← peek
  Reading.get sameTokens token

/-- There is a next token, and its type passes the test. -/
def nextIs (f : TokenType → Bool) : Parse Bool := Reading.look fun s => s.rest.head?.any (f ·.type)

end Parse

/-- `MatchExpectedToken`. -/
def matchExpectedToken (expected : TokenType) : Parse Bytes := do
  let token ← Parse.get
  if token.type ≠ expected then Parse.fail (ascii "Unexpected token: " ++ token.value) token
  else return token.value

end Reader

/-- `Object::Insert`: throws where there is a member of that name. -/
def Object.insert (o : Object) (name : String) (e : Json) : Option Object :=
  if (o.lookup name).isSome then none else some (o ++ [(name, e)])

/-- How a double is printed with twenty digits, and what `>>` makes of the text of a NUMBER token: a
    double, or the character it stops at. Printing gives a numeral; the digits of what was read, and
    those of an `int`, read as the same double. -/
structure Doubles where
  format : Rat → Bytes
  parse : Bytes → Except UInt8 Rat
  format_head : ∀ v, ∃ c cs, format v = c :: cs ∧ (c = 45 ∨ 48 ≤ c ∧ c ≤ 57)
  format_numeric : ∀ v, ∀ c ∈ format v, Reader.isNumeric c = true ∧ c ≠ 0
  parse_format : ∀ text v, parse text = .ok v → parse (format v) = .ok v
  parse_format_int : ∀ n : Int32, parse (format (doubleOfInt n)) = .ok (doubleOfInt n)

namespace Reader

/-- The name of a member: its characters are bytes. -/
def nameOf (b : Bytes) : String := String.ofList (b.map fun c => Char.ofNat c.toNat)

/-- The double of a token's text, all of it. -/
def readDouble (d : Doubles) (currentToken : Token) (value : Bytes) : Parse Json :=
  match d.parse value with
  | .ok v => pure (.number v)
  | .error c => Parse.fail (ascii "Unexpected character in NUMBER token: " ++ [c]) currentToken

/-- `Parse(Number&)`. -/
def parseNumber (d : Doubles) : Parse Json := do
  let currentToken ← Parse.peek
  let value ← matchExpectedToken .number
  readDouble d currentToken value

/-- The end of either loop: `bContinue`, and the comma is taken where there is one. -/
def nextElement : Parse Bool := do
  let bContinue ← Parse.nextIs (· = .nextElement)
  if bContinue then
    discard (matchExpectedToken .nextElement)
    return true
  else
    return false

/-- The member is added to the object, unless it has one of that name. -/
def addMember (o : Object) (tokenName : Token) (name : Bytes) (element : Json) : Parse Object :=
  match o.insert (nameOf name) element with
  | none => Parse.fail (ascii "Duplicate object member token: " ++ name) tokenName
  | some o => pure o

/-- One pass of the loop over members, with `bContinue`. -/
def parseMember (parse : Parse Json) (object : Object × Bool) : Parse (Object × Bool) := do
  let tokenName ← Parse.peek
  let name ← matchExpectedToken .string
  discard (matchExpectedToken .memberAssign)
  let element ← parse
  let o ← addMember object.1 tokenName name element
  let bContinue ← nextElement
  return (o, bContinue)

/-- `Parse(Object&)`. -/
def parseObject (fuel : Nat) (parse : Parse Json) : Parse Object := do
  discard (matchExpectedToken .objectBegin)
  let bContinue ← Parse.nextIs (· ≠ .objectEnd)
  let object ← Reading.whileLoop .outOfFuel (fun object _ => object.2) (parseMember parse) fuel
    ([], bContinue)
  discard (matchExpectedToken .objectEnd)
  return object.1

/-- One pass of the loop over elements. -/
def parseItem (parse : Parse Json) (array : List Json × Bool) : Parse (List Json × Bool) := do
  let element ← parse
  let bContinue ← nextElement
  return (array.1 ++ [element], bContinue)

/-- `Parse(Array&)`. -/
def parseArray (fuel : Nat) (parse : Parse Json) : Parse (List Json) := do
  discard (matchExpectedToken .arrayBegin)
  let bContinue ← Parse.nextIs (· ≠ .arrayEnd)
  let array ← Reading.whileLoop .outOfFuel (fun array _ => array.2) (parseItem parse) fuel
    ([], bContinue)
  discard (matchExpectedToken .arrayEnd)
  return array.1

/-- `Parse(UnknownElement&)`. -/
def parseElement (d : Doubles) : Nat → Parse Json
  | 0 => fun _ => .error .outOfFuel
  | fuel + 1 => do
      let token ← Parse.peek
      match token.type with
      | .objectBegin => Json.object <$> parseObject fuel (parseElement d fuel)
      | .arrayBegin => Json.array <$> parseArray fuel (parseElement d fuel)
      | .string => Json.string <$> matchExpectedToken .string
      | .number => parseNumber d
      | .boolean => (fun value => Json.boolean (value = ascii "true")) <$> matchExpectedToken .boolean
      | .null => (fun _ => Json.null) <$> matchExpectedToken .null
      | _ => Parse.fail (ascii "Unexpected token: " ++ token.value) token

/-- `Read_i` behind the scanner. -/
def readTokens (d : Doubles) (tokens : List Token) : Except ReadException Object := do
  let (object, tokenStream) ←
    parseObject (tokens.length + 1) (parseElement d (tokens.length + 1)) ⟨tokens, tokens⟩
  match tokenStream.rest with
  | [] => return object
  | token :: _ =>
      .error (.parse (ascii "Expected End of token stream; found " ++ token.value)
        token.locBegin token.locEnd)

/-- `Reader::Read(Object&, std::istream&)`. -/
def read (d : Doubles) (text : Bytes) : Except ReadException Object := do
  let (tokens, _) ← scan (text.length + 1) ⟨{}, text⟩
  readTokens d tokens

end Reader

end Domoio
