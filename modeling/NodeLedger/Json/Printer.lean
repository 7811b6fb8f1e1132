import NodeLedger.Json.Value

/-!
# Printing JSON

JSON text is written in printable ASCII: other characters appear as escapes of four hexadecimal
digits, and characters beyond U+FFFF as a pair of surrogate escapes; a lone half is an escape by
itself. There are two layouts.

- `Json.compact`: no blank space at all, the layout of the ledger file.
- `Json.indented`: one item or member per line, two blanks deeper than its container, the layout of
  a plan.
-/

namespace NodeLedger.Json

open Text

/-- One character inside a JSON string. -/
def escapeChar (c : Char) : List Char :=
  if c == '"' then ['\\', '"']
  else if c == '\\' then ['\\', '\\']
  else if c == '\n' then ['\\', 'n']
  else if c == '\r' then ['\\', 'r']
  else if c == '\t' then ['\\', 't']
  else if c == '\x08' then ['\\', 'b']
  else if c == '\x0c' then ['\\', 'f']
  else if 0x20 ≤ c.toNat && c.toNat < 0x7f then [c]
  else if c.toNat < 0x10000 then unitEscape c.toNat
  else
    unitEscape (0xd800 + (c.toNat - 0x10000) / 0x400)
      ++ unitEscape (0xdc00 + (c.toNat - 0x10000) % 0x400)

/-- One code point inside a JSON string. -/
def escapePoint : CodePoint → List Char
  | .char c => escapeChar c
  | .half number => unitEscape (CodePoint.half number).toNat

/-- A JSON string. -/
def showString (text : CodeText) : String :=
  String.ofList ('"' :: text.points.flatMap escapePoint ++ ['"'])

/-- A value that is neither an array nor an object. -/
def showScalar : Json → String
  | null => "null"
  | bool value => if value then "true" else "false"
  | int value => integer value
  | float value => value.textWith "Infinity" "NaN"
  | str value => showString value
  | _ => ""

mutual

/-- A value without blank space. -/
def compact : Json → String
  | arr items => "[" ++ compactItems items ++ "]"
  | obj members => "\x7b" ++ compactMembers members ++ "\x7d"
  | value => showScalar value

/-- Items without blank space. -/
def compactItems : List Json → String
  | [] => ""
  | [item] => item.compact
  | item :: items => item.compact ++ "," ++ compactItems items

/-- Members without blank space. -/
def compactMembers : List (CodeText × Json) → String
  | [] => ""
  | [(name, value)] => showString name ++ ":" ++ value.compact
  | (name, value) :: members =>
    showString name ++ ":" ++ value.compact ++ "," ++ compactMembers members

end

/-- The start of a line at a depth. -/
def newLine (depth : Nat) : String :=
  "\n" ++ String.ofList (List.replicate (2 * depth) ' ')

mutual

/-- A value laid out in lines, as it stands at a depth. -/
def indentedAt (depth : Nat) : Json → String
  | arr [] => "[]"
  | arr items => "[" ++ indentedItems (depth + 1) items ++ newLine depth ++ "]"
  | obj [] => "\x7b\x7d"
  | obj members => "\x7b" ++ indentedMembers (depth + 1) members ++ newLine depth ++ "\x7d"
  | value => showScalar value

/-- Items laid out in lines. -/
def indentedItems (depth : Nat) : List Json → String
  | [] => ""
  | [item] => newLine depth ++ indentedAt depth item
  | item :: items => newLine depth ++ indentedAt depth item ++ "," ++ indentedItems depth items

/-- Members laid out in lines. -/
def indentedMembers (depth : Nat) : List (CodeText × Json) → String
  | [] => ""
  | [(name, value)] => newLine depth ++ showString name ++ ": " ++ indentedAt depth value
  | (name, value) :: members =>
    newLine depth ++ showString name ++ ": " ++ indentedAt depth value ++ ","
      ++ indentedMembers depth members

end

/-- A value laid out in lines. -/
def indented (value : Json) : String :=
  indentedAt 0 value

end NodeLedger.Json
