import NodeLedger.Address.Mask
import NodeLedger.Text.Field

/-!
# IPv4 addresses

Four octets, each a decimal number up to 255 without leading zeros, joined by dots.

- `octet?`: one octet in text.
- `readV4?`, `showV4`: an address in text, as a number below `2 ^ 32`.
- `v4Length?`: what may follow the slash of an IPv4 block: a prefix length, a netmask or a hostmask.
-/

namespace NodeLedger.Address

open Text

/-- An octet in text: one to three digits, no leading zero, at most 255. -/
def octet? (cs : List Char) : Option Nat :=
  if !cs.isEmpty && cs.length ≤ 3 && cs.all isAsciiDigit
      && (cs == ['0'] || cs.head? != some '0') && decimalNumber cs ≤ 255 then
    some (decimalNumber cs)
  else none

/-- The address that four octets stand for. -/
def ofOctets (a b c d : Nat) : Nat :=
  ((a * 256 + b) * 256 + c) * 256 + d

/-- An IPv4 address in text. -/
def readV4? (cs : List Char) : Option Nat :=
  match fields '.' cs with
  | [a, b, c, d] => do
    return ofOctets (← octet? a) (← octet? b) (← octet? c) (← octet? d)
  | _ => none

/-- The four octets of an address, the first one first. -/
def octets (address : Nat) : List Nat :=
  [address / 16777216 % 256, address / 65536 % 256, address / 256 % 256, address % 256]

/-- The text of an IPv4 address. -/
def showV4 (address : Nat) : List Char :=
  joinFields ['.'] ((octets address).map decimal)

/-- The prefix length written after the slash of an IPv4 block. -/
def v4Length? (cs : List Char) : Option Nat :=
  prefixLength? 32 cs <|> (readV4? cs).bind (maskLength? 32)

end NodeLedger.Address
