/-!
# Hexadecimal digits

Lower-case hexadecimal numerals, with and without leading zeros, and the value of a digit of either
case. Byte positions, address groups and escapes are written with them.
-/

namespace NodeLedger.Text

/-- The value of a hexadecimal digit of either case. -/
def hexValue? (c : Char) : Option Nat :=
  if '0' ≤ c ∧ c ≤ '9' then some (c.toNat - 0x30)
  else if 'a' ≤ c ∧ c ≤ 'f' then some (c.toNat - 0x61 + 10)
  else if 'A' ≤ c ∧ c ≤ 'F' then some (c.toNat - 0x41 + 10)
  else none

/-- The number that a list of digits stands for, or nothing when one of them is no digit. -/
def hexNumber? (cs : List Char) : Option Nat :=
  cs.foldl (fun acc c => do return (← acc) * 16 + (← hexValue? c)) (some 0)

/-- A numeral without leading zeros. -/
def hex (n : Nat) : List Char :=
  Nat.toDigits 16 n

/-- A numeral of at least `width` digits. -/
def hexPadded (width n : Nat) : List Char :=
  (hex n).leftpad width '0'

/-- The escape of a code point below U+10000, with four digits. -/
def unitEscape (n : Nat) : List Char :=
  '\\' :: 'u' :: hexPadded 4 n

example : hexPadded 4 0xe9 = ['0', '0', 'e', '9'] := by decide
example : hexNumber? ['1', 'F'] = some 31 := by decide

end NodeLedger.Text
