import NodeLedger.Text.CodeText
import NodeLedger.Text.Printable

/-!
# Quoted literals

Messages show a text as a literal in quotes: single quotes, unless the text holds a single quote and
no double quote. The quote in use and the backslash are escaped, and code points that are not
printable characters are written as escapes of fixed width.

- `quote`: the literal of a text.
- `quoteStart`: the first 200 characters of the literal, for messages about a text of any length.
-/

namespace NodeLedger.Text

/-- The quote that a literal of the text is written with. -/
def quoteMark (text : CodeText) : Char :=
  if text.points.contains (.char '\'') && !text.points.contains (.char '"') then '"' else '\''

/-- One character inside a literal. -/
def quoteChar (mark c : Char) : List Char :=
  if c == mark || c == '\\' then ['\\', c]
  else if c == '\t' then ['\\', 't']
  else if c == '\n' then ['\\', 'n']
  else if c == '\r' then ['\\', 'r']
  else if isPrintable c then [c]
  else if c.toNat < 0x100 then '\\' :: 'x' :: hexPadded 2 c.toNat
  else if c.toNat < 0x10000 then unitEscape c.toNat
  else '\\' :: 'U' :: hexPadded 8 c.toNat

/-- One code point inside a literal. -/
def quotePoint (mark : Char) : CodePoint → List Char
  | .char c => quoteChar mark c
  | .half number => unitEscape (CodePoint.half number).toNat

/-- The literal of a text, as characters. -/
def quoteChars (text : CodeText) : List Char :=
  let mark := quoteMark text
  mark :: text.points.flatMap (quotePoint mark) ++ [mark]

/-- The literal of a text. -/
def quote (text : CodeText) : String :=
  String.ofList (quoteChars text)

/-- The first 200 characters of the literal of a text. -/
def quoteStart (text : CodeText) : String :=
  String.ofList ((quoteChars text).take 200)

example : quoteChars "it's" = ['"', 'i', 't', '\'', 's', '"'] := by decide +kernel
example : quoteChars "\n\x7f" = ['\'', '\\', 'n', '\\', 'x', '7', 'f', '\''] := by
  decide +kernel
example : quoteChars ⟨[.half 0, .char 'x']⟩ = ['\'', '\\', 'u', 'd', '8', '0', '0', 'x', '\''] := by
  decide +kernel

end NodeLedger.Text
