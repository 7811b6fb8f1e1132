import NodeLedger.Json.Value
import NodeLedger.Text.Integer

/-!
# Reading JSON

A reader for JSON text that also accepts `NaN`, `Infinity` and `-Infinity`, and that says where and
why a text is no JSON.

- `Json.read`: the value of a text, or the first fault in it.
- `ReadFault`: what is wrong. A malformed text is reported by the position, the line and the column
  of the fault, counted in characters.

Reading consumes a list of characters; a position is known by the number of characters left. The
functions that follow nested values carry fuel, of which twice the length of the text is enough,
since every second call consumes a character, and the depth to which values may still be nested.
A surrogate escape without its partner is kept as a lone half.
-/

namespace NodeLedger.Json

open Text

/-- How a text fails to be JSON. -/
inductive Malformation where
  | expectingValue
  | expectingName
  | expectingColon
  | expectingComma
  | extraData
  | unterminatedString
  | controlCharacter
  | badEscape
  | badUnicodeEscape
  | byteOrderMark
  deriving Repr, DecidableEq

/-- The wording of a malformation. -/
def Malformation.message : Malformation → String
  | expectingValue => "Expecting value"
  | expectingName => "Expecting property name enclosed in double quotes"
  | expectingColon => "Expecting ':' delimiter"
  | expectingComma => "Expecting ',' delimiter"
  | extraData => "Extra data"
  | unterminatedString => "Unterminated string starting at"
  | controlCharacter => "Invalid control character at"
  | badEscape => "Invalid \\escape"
  | badUnicodeEscape => "Invalid \\uXXXX escape"
  | byteOrderMark => "Unexpected UTF-8 BOM (decode using utf-8-sig)"

/-- Why reading stopped, with the number of characters left at the place of a malformation. -/
inductive Stop where
  | malformed (what : Malformation) (left : Nat)
  | tooManyDigits (count : Nat)
  | tooDeep
  deriving Repr, DecidableEq

/-- How deep arrays and objects may be nested. Each level takes some of the stack, so it depends on how
much of it a program has left when it reads; there is always enough for three levels. -/
class Nesting where
  limit : Nat
  enough : 3 ≤ limit

/-- The levels that are left to a program with a stack of the usual size. -/
@[reducible] def Nesting.usual : Nesting := ⟨980, by decide⟩

/-- The blank space between the tokens of JSON. -/
def isSpace (c : Char) : Bool :=
  c == ' ' || c == '\t' || c == '\n' || c == '\r'

/-- The rest of a text after blank space. -/
def skipSpace (cs : List Char) : List Char :=
  cs.dropWhile isSpace

/-- The rest of a text after a word, if it starts with the word. -/
def afterWord? (word : String) (cs : List Char) : Option (List Char) :=
  if word.toList.isPrefixOf cs then some (cs.drop word.length) else none

/-- The first of two surrogates that stand for one character. -/
def isHighSurrogate (n : Nat) : Bool := 0xd800 ≤ n && n < 0xdc00

/-- The second of two surrogates that stand for one character. -/
def isLowSurrogate (n : Nat) : Bool := 0xdc00 ≤ n && n < 0xe000

/-- The stop at an escape whose digits start a text. -/
def badUnit (cs : List Char) : Stop :=
  .malformed .badUnicodeEscape (cs.length + 1)

/-- Four hexadecimal digits and at least one character after them. -/
def readUnit (cs : List Char) : Except Stop (Nat × List Char) :=
  match cs with
  | a :: b :: c :: d :: rest =>
    match hexNumber? [a, b, c, d] with
    | some n => if rest.isEmpty then .error (badUnit cs) else .ok (n, rest)
    | none => .error (badUnit cs)
  | _ => .error (badUnit cs)

/-- The code point of a Unicode escape, from its digits on. Two escapes that make up a surrogate pair
are one character. A second escape is looked for only where more than six characters follow. -/
def readUnicodeEscape (cs : List Char) : Except Stop (CodePoint × List Char) := do
  let (n, rest) ← readUnit cs
  match isHighSurrogate n && !(rest.drop 6).isEmpty, rest with
  | true, '\\' :: 'u' :: next =>
    let (m, after) ← readUnit next
    if isLowSurrogate m then
      return (.char (Char.ofNat (0x10000 + (n - 0xd800) * 0x400 + (m - 0xdc00))), after)
    else return (.ofUnit n, rest)
  | _, _ => return (.ofUnit n, rest)

/-- The character of an escape of one letter. -/
def letterEscape? : Char → Option Char
  | '"' => some '"'
  | '\\' => some '\\'
  | '/' => some '/'
  | 'b' => some '\x08'
  | 'f' => some '\x0c'
  | 'n' => some '\n'
  | 'r' => some '\r'
  | 't' => some '\t'
  | _ => none

/-- The next code point of a string, or nothing at its closing quote. `opened` is the number of
characters left at the opening quote. -/
def readStringPoint (opened : Nat) : List Char → Except Stop (Option CodePoint × List Char)
  | [] => .error (.malformed .unterminatedString opened)
  | '"' :: cs => .ok (none, cs)
  | '\\' :: [] => .error (.malformed .unterminatedString opened)
  | '\\' :: 'u' :: cs => (readUnicodeEscape cs).map fun p => (some p.1, p.2)
  | '\\' :: c :: cs =>
    match letterEscape? c with
    | some e => .ok (some (.char e), cs)
    | none => .error (.malformed .badEscape (cs.length + 2))
  | c :: cs =>
    if c.toNat < 0x20 then .error (.malformed .controlCharacter (cs.length + 1))
    else .ok (some (.char c), cs)

/-- The code points of a string up to its closing quote, and the rest of the text. -/
def readStringPoints (opened : Nat) :
    (fuel : Nat) → List Char → Except Stop (List CodePoint × List Char)
  | 0, _ => .error .tooDeep
  | fuel + 1, cs => do
    match ← readStringPoint opened cs with
    | (none, rest) => return ([], rest)
    | (some point, rest) =>
      let (more, rest) ← readStringPoints opened fuel rest
      return (point :: more, rest)

/-- The string that starts after an opening quote. -/
def readString (cs : List Char) : Except Stop (CodeText × List Char) := do
  let (points, rest) ← readStringPoints (cs.length + 1) (cs.length + 1) cs
  return (⟨points⟩, rest)

/-- The whole part of a number: zero, or digits that do not start with zero. -/
def readWhole? : List Char → Option (List Char × List Char)
  | '0' :: cs => some (['0'], cs)
  | c :: cs => if isAsciiDigit c then some ((c :: cs).span isAsciiDigit) else none
  | [] => none

/-- The digits after the point of a number. -/
def readFraction? : List Char → Option (List Char × List Char)
  | '.' :: cs =>
    let (digits, rest) := cs.span isAsciiDigit
    if digits.isEmpty then none else some (digits, rest)
  | _ => none

/-- The exponent of a number. -/
def readExponent? : List Char → Option (Int × List Char)
  | c :: cs =>
    if c == 'e' || c == 'E' then
      let (negative, cs) := splitSign cs
      let (digits, rest) := cs.span isAsciiDigit
      let value := Int.ofNat (decimalNumber digits)
      if digits.isEmpty then none else some (if negative then -value else value, rest)
    else none
  | [] => none

/-- A number. What follows its longest valid start is left over. -/
def readNumber (cs : List Char) : Except Stop (Json × List Char) :=
  let (negative, body) :=
    match cs with
    | '-' :: rest => (true, rest)
    | _ => (false, cs)
  match readWhole? body with
  | none => .error (.malformed .expectingValue cs.length)
  | some (whole, rest) =>
    let (fraction, afterFraction) := (readFraction? rest).getD ([], rest)
    let exponent := readExponent? afterFraction
    if fraction.isEmpty && exponent.isNone then
      if digitLimit < whole.length then .error (.tooManyDigits whole.length)
      else
        let value := Int.ofNat (decimalNumber whole)
        .ok (.int (if negative then -value else value), rest)
    else
      let (power, after) := exponent.getD (0, afterFraction)
      let digits := decimalNumber (whole ++ fraction)
      .ok (.float (.ofDecimal negative digits (power - Int.ofNat fraction.length)), after)

/-- A value that is written as a word. -/
def readWord? (cs : List Char) : Option (Json × List Char) :=
  [("null", null), ("true", bool true), ("false", bool false), ("NaN", float .nan),
   ("Infinity", float (.infinite false)), ("-Infinity", float (.infinite true))].findSome?
    fun (word, value) => (afterWord? word cs).map (value, ·)

/-- A value that is neither an array nor an object. -/
def readScalar (cs : List Char) : Except Stop (Json × List Char) :=
  match cs with
  | '"' :: rest => (readString rest).map fun p => (str p.1, p.2)
  | _ =>
    match readWord? cs with
    | some p => .ok p
    | none => readNumber cs

/-- The name of a member and its colon. -/
def readName (cs : List Char) : Except Stop (CodeText × List Char) :=
  match cs with
  | '"' :: rest => do
    let (name, rest) ← readString rest
    match skipSpace rest with
    | ':' :: rest => return (name, skipSpace rest)
    | rest => throw (.malformed .expectingColon rest.length)
  | _ => .error (.malformed .expectingName cs.length)

/-- What follows an item: a comma, which leaves the rest of the items, or the closing bracket. -/
def afterItem (closing : Char) (cs : List Char) : Except Stop (Bool × List Char) :=
  match skipSpace cs with
  | c :: rest =>
    if c == closing then .ok (false, rest)
    else if c == ',' then .ok (true, skipSpace rest)
    else .error (.malformed .expectingComma (rest.length + 1))
  | [] => .error (.malformed .expectingComma 0)

mutual

/-- The value at the front of a text. -/
def readValue (depth : Nat) : (fuel : Nat) → List Char → Except Stop (Json × List Char)
  | 0, _ => .error .tooDeep
  | fuel + 1, cs =>
    match cs with
    | '[' :: rest =>
      match depth with
      | 0 => .error .tooDeep
      | depth + 1 =>
        match skipSpace rest with
        | ']' :: rest => .ok (arr [], rest)
        | rest => (readItems depth fuel rest).map fun p => (arr p.1, p.2)
    | '\x7b' :: rest =>
      match depth with
      | 0 => .error .tooDeep
      | depth + 1 =>
        match skipSpace rest with
        | '\x7d' :: rest => .ok (obj [], rest)
        | rest => (readMembers depth fuel [] rest).map fun p => (obj p.1, p.2)
    | _ => readScalar cs

/-- The items of an array, up to its closing bracket. -/
def readItems (depth : Nat) : (fuel : Nat) → List Char → Except Stop (List Json × List Char)
  | 0, _ => .error .tooDeep
  | fuel + 1, cs => do
    let (item, rest) ← readValue depth fuel cs
    match ← afterItem ']' rest with
    | (false, rest) => return ([item], rest)
    | (true, rest) =>
      let (items, rest) ← readItems depth fuel rest
      return (item :: items, rest)

/-- The members of an object, added to those before them, up to its closing brace. -/
def readMembers (depth : Nat) :
    (fuel : Nat) → List (CodeText × Json) → List Char →
      Except Stop (List (CodeText × Json) × List Char)
  | 0, _, _ => .error .tooDeep
  | fuel + 1, members, cs => do
    let (name, rest) ← readName cs
    let (value, rest) ← readValue depth fuel rest
    let members := setMember members name value
    match ← afterItem '\x7d' rest with
    | (false, rest) => return (members, rest)
    | (true, rest) => readMembers depth fuel members rest

end

/-- Why a text was refused. -/
inductive ReadFault where
  /-- The text is no JSON, at a position in a line and column. -/
  | malformed (what : Malformation) (line column position : Nat)
  /-- An integer has too many digits. -/
  | tooManyDigits (count : Nat)
  /-- Values are nested too deep. -/
  | tooDeep
  deriving Repr, DecidableEq

/-- The fault at a position of a text. Lines and columns count from one. -/
def ReadFault.locate (text : List Char) (what : Malformation) (position : Nat) : ReadFault :=
  let before := text.take position
  .malformed what (before.count '\n' + 1) ((before.reverse.takeWhile (· != '\n')).length + 1)
    position

/-- The wording of a malformed text. -/
def malformedMessage (what : Malformation) (line column position : Nat) : String :=
  s!"{what.message}: line {line} column {column} (char {position})"

/-- The whole of a text as one value. -/
def readWhole [Nesting] (text : List Char) : Except Stop Json := do
  if text.head? == some '\ufeff' then throw (.malformed .byteOrderMark text.length)
  let (value, rest) ← readValue Nesting.limit (2 * text.length + 2) (skipSpace text)
  let rest := skipSpace rest
  if rest.isEmpty then return value else throw (.malformed .extraData rest.length)

/-- The value of a text. -/
def read [Nesting] (text : List Char) : Except ReadFault Json :=
  match readWhole text with
  | .ok value => .ok value
  | .error (.malformed what left) => .error (.locate text what (text.length - left))
  | .error (.tooManyDigits count) => .error (.tooManyDigits count)
  | .error .tooDeep => .error .tooDeep

end NodeLedger.Json
