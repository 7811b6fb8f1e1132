import NodeLedger.Address.V4

/-!
# Finding an address in a text

A lookup service answers with some text around the caller's address. The address is the leftmost
place where four octets joined by dots stand, each octet taken as long as possible; what comes
before and after does not matter, so `300.2.3.4` holds `0.2.3.4`.

- `octetStarts`: the octets that a text starts with, the longest first.
- `findV4`: the first address in a text.
-/

namespace NodeLedger.Address

open Text

/-- The octets that a text starts with, each with the rest of the text, the longest first. -/
def octetStarts (cs : List Char) : List (List Char × List Char) :=
  [3, 2, 1].filterMap fun n =>
    let digits := cs.take n
    if digits.length == n && (octet? digits).isSome then some (digits, cs.drop n) else none

/-- The address part at the front of a text made of one octet and `dots` dotted ones after it. -/
def startingV4 : (dots : Nat) → List Char → Option (List Char)
  | 0, cs => (octetStarts cs).head?.map (·.1)
  | dots + 1, cs =>
    (octetStarts cs).findSome? fun (digits, rest) =>
      match rest with
      | '.' :: rest => (startingV4 dots rest).map (digits ++ '.' :: ·)
      | _ => none

/-- The first address in a text, as characters. -/
def findV4Chars : List Char → Option (List Char)
  | [] => none
  | c :: cs => startingV4 3 (c :: cs) <|> findV4Chars cs

/-- The first address in a text. -/
def findV4 (text : String) : Option String :=
  (findV4Chars text.toList).map String.ofList

end NodeLedger.Address
