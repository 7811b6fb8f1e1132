import NodeLedger.Text.Blank
import NodeLedger.Text.Digit
import NodeLedger.Text.Quoted

/-!
# Integers in text

Port numbers are read generously: blank space around the number, a sign, decimal digits of any
script, and single underscores between digits are accepted. Numbers of more than 4300 digits are
refused, a limit that the number text of JSON files shares.

- `readInteger`: the integer written in a text, or why there is none.
- `IntegerFault`: a text that is no integer, or one with too many digits.
-/

namespace NodeLedger.Text

/-- The largest number of digits an integer may be written with. -/
def digitLimit : Nat := 4300

/-- Why a text was refused as an integer. -/
inductive IntegerFault where
  /-- The text is not written as an integer. -/
  | malformed (text : String)
  /-- The integer has more digits than `digitLimit`. -/
  | tooManyDigits (count : Nat)
  deriving Repr, DecidableEq

/-- The wording of a refusal. -/
def IntegerFault.message : IntegerFault → String
  | malformed text => s!"invalid literal for int() with base 10: {quoteStart text}"
  | tooManyDigits count =>
    s!"Exceeds the limit ({digitLimit} digits) for integer string conversion: "
      ++ s!"value has {count} digits; use sys.set_int_max_str_digits() to increase the limit"

/-- Blanks that may surround a number: the information separators U+001C to U+001F may not. -/
def isNumberBlank (c : Char) : Bool :=
  isBlank c && !(0x1c ≤ c.toNat && c.toNat ≤ 0x1f)

/-- Digits with single underscores between them. The flag tells that an underscore may not follow:
at the start, and after another underscore. -/
def isGrouped : Bool → List Char → Bool
  | barred, [] => !barred
  | barred, c :: cs => if c == '_' then !barred && isGrouped true cs else isGrouped false cs

/-- Take a sign off the front of a number; the flag tells whether it was a minus. -/
def splitSign : List Char → Bool × List Char
  | '-' :: cs => (true, cs)
  | '+' :: cs => (false, cs)
  | cs => (false, cs)

/-- The integer written in a text. A misplaced underscore is noticed first, then the digit limit,
then anything that follows the digits. -/
def readInteger (text : String) : Except IntegerFault Int :=
  let (negative, body) := splitSign (trimBy isNumberBlank text.toList)
  let isPart := fun c => c == '_' || (digitValue? c).isSome
  let run := body.takeWhile isPart
  let digits := run.filterMap digitValue?
  let value := digits.foldl (fun acc d => acc * 10 + d) 0
  if !isGrouped true run then .error (.malformed text)
  else if digitLimit < digits.length then .error (.tooManyDigits digits.length)
  else if !(body.dropWhile isPart).isEmpty then .error (.malformed text)
  else .ok (if negative then -Int.ofNat value else Int.ofNat value)

end NodeLedger.Text
