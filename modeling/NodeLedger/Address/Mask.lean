import NodeLedger.Text.Digit
import NodeLedger.Text.Integer

/-!
# Network masks

An address block is an address together with the number of leading bits that its members share, the
prefix length. Here addresses are natural numbers below `2 ^ width`, for the 32 bits of IPv4 and the
128 bits of IPv6.

- `clearHost`: an address with every bit past the prefix cleared, which names the block.
- `prefixLength?`: a prefix length in text.
- `maskLength?`: the prefix length that a mask stands for, written as a netmask (ones then zeros) or
  as a hostmask (zeros then ones). The two masks that are both, all zeros and all ones, count as
  netmasks.
-/

namespace NodeLedger.Address

open Text

/-- An address of `width` bits with all but its first `length` bits cleared. -/
def clearHost (width length address : Nat) : Nat :=
  address / Nat.pow 2 (width - length) * Nat.pow 2 (width - length)

/-- A prefix length in text: digits only, leading zeros allowed, at most `width`. -/
def prefixLength? (width : Nat) (cs : List Char) : Option Nat :=
  if !cs.isEmpty && cs.all isAsciiDigit && cs.length ≤ digitLimit && decimalNumber cs ≤ width then
    some (decimalNumber cs)
  else none

/-- The netmask of a prefix length: that many ones, then zeros. -/
def netmask (width length : Nat) : Nat :=
  Nat.pow 2 width - Nat.pow 2 (width - length)

/-- The hostmask of a prefix length: that many zeros, then ones. -/
def hostmask (width length : Nat) : Nat :=
  Nat.pow 2 (width - length) - 1

/-- The prefix length that a mask stands for. -/
def maskLength? (width mask : Nat) : Option Nat :=
  ((List.range (width + 1)).find? fun length => mask == netmask width length) <|>
  ((List.range (width + 1)).find? fun length => mask == hostmask width length)

end NodeLedger.Address
