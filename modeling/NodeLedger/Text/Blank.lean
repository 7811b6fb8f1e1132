/-!
# Blank characters

Tokens such as addresses and port ranges arrive with blank space around them. This module fixes
which characters are blank and how a token is trimmed.

- `isBlank`: Unicode white space together with the four information separators U+001C to U+001F,
  29 characters in all.
- `strip`: a token without the blanks at its two ends; blanks inside it stay.
- `lowerAscii`: lower case of the letters A to Z. It decides whether a word is a keyword such as
  `inbound` or `azure` in any case: beyond ASCII only the Kelvin sign lowers to a lone ASCII letter,
  and no keyword contains a k.
-/

namespace NodeLedger.Text

/-- The code points of blank characters, as closed ranges. -/
def blankRanges : List (Nat × Nat) :=
  [(0x0009, 0x000d), (0x001c, 0x0020), (0x0085, 0x0085), (0x00a0, 0x00a0), (0x1680, 0x1680),
   (0x2000, 0x200a), (0x2028, 0x2029), (0x202f, 0x202f), (0x205f, 0x205f), (0x3000, 0x3000)]

/-- Membership of a code point in a list of closed ranges. -/
def inRanges (ranges : List (Nat × Nat)) (n : Nat) : Bool :=
  ranges.any fun r => r.1 ≤ n && n ≤ r.2

/-- A character that `strip` removes at the ends of a token. -/
def isBlank (c : Char) : Bool :=
  inRanges blankRanges c.toNat

/-- Drop the characters satisfying `p` at both ends. -/
def trimBy (p : Char → Bool) (cs : List Char) : List Char :=
  ((cs.dropWhile p).reverse.dropWhile p).reverse

/-- A token, as characters, without the blanks at its ends. -/
def stripChars (cs : List Char) : List Char :=
  trimBy isBlank cs

/-- A token without the blanks at its ends. -/
def strip (s : String) : String :=
  String.ofList (stripChars s.toList)

/-- Lower case of the letters A to Z; every other character stays. -/
def lowerAscii (s : String) : String :=
  String.ofList (s.toList.map Char.toLower)

example : (blankRanges.map fun r => r.2 + 1 - r.1).sum = 29 := by decide

end NodeLedger.Text
