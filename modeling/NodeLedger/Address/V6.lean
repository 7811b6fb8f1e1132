import NodeLedger.Address.V4
import NodeLedger.Text.Hex

/-!
# IPv6 addresses

Eight groups of one to four hexadecimal digits joined by colons. One run of zero groups may be left
out, which leaves two colons in a row; the last two groups may be written as an IPv4 address. A
percent sign sets off a scope, the name of the interface that a link-local address belongs to.

- `readV6?`: an address in text, as a number below `2 ^ 128`.
- `showV6`: its text in canonical form: groups without leading zeros, and the first longest run of
  two or more zero groups left out.
- `splitScope?`: an address text and its scope.
-/

namespace NodeLedger.Address

open Text

/-- A group in text. -/
def group? (cs : List Char) : Option Nat :=
  if !cs.isEmpty && cs.length ≤ 4 then hexNumber? cs else none

/-- Groups in text, all of them hexadecimal. -/
def groups? (parts : List (List Char)) : Option (List Nat) :=
  parts.mapM group?

/-- Groups in text, of which the last may be an IPv4 address and then counts for two. -/
def groupsWithTail? : List (List Char) → Option (List Nat)
  | [] => some []
  | [last] =>
    if last.contains '.' then (readV4? last).map fun a => [a / 65536, a % 65536]
    else (group? last).map ([·])
  | part :: parts => do return (← group? part) :: (← groupsWithTail? parts)

/-- The colon-separated parts of a text; the empty text has none. -/
def parts (cs : List Char) : List (List Char) :=
  if cs.isEmpty then [] else fields ':' cs

/-- The two sides of the first pair of colons. -/
def cutGap? : List Char → Option (List Char × List Char)
  | ':' :: ':' :: cs => some ([], cs)
  | c :: cs => (cutGap? cs).map fun p => (c :: p.1, p.2)
  | [] => none

/-- The eight groups of an address in text. A gap stands for at least one group. -/
def readGroups? (cs : List Char) : Option (List Nat) :=
  match cutGap? cs with
  | none => do
    let groups ← groupsWithTail? (parts cs)
    if groups.length = 8 then some groups else none
  | some (before, after) => do
    let left ← groups? (parts before)
    let right ← groupsWithTail? (parts after)
    if left.length + right.length ≤ 7 then
      some (left ++ List.replicate (8 - left.length - right.length) 0 ++ right)
    else none

/-- The address that a list of groups stands for. -/
def ofGroups (groups : List Nat) : Nat :=
  groups.foldl (fun acc g => acc * 65536 + g) 0

/-- The eight groups of an address, the first one first. -/
def toGroups (address : Nat) : List Nat :=
  (List.range 8).map fun i => address / Nat.pow 2 (16 * (7 - i)) % 65536

/-- An IPv6 address in text, without scope. -/
def readV6? (cs : List Char) : Option Nat :=
  (readGroups? cs).map ofGroups

/-- The number of zero groups at the front. -/
def zeroRun (groups : List Nat) : Nat :=
  (groups.takeWhile (· == 0)).length

/-- The first longest run of zero groups, as its start and its length. -/
def longestZeroRun (groups : List Nat) : Nat × Nat :=
  (List.range groups.length).foldl
    (fun best i => if best.2 < zeroRun (groups.drop i) then (i, zeroRun (groups.drop i)) else best)
    (0, 0)

/-- Groups in text. -/
def showGroups (groups : List Nat) : List Char :=
  joinFields [':'] (groups.map hex)

/-- The canonical text of an IPv6 address. -/
def showV6 (address : Nat) : List Char :=
  let groups := toGroups address
  let (start, length) := longestZeroRun groups
  if length < 2 then showGroups groups
  else showGroups (groups.take start) ++ [':', ':'] ++ showGroups (groups.drop (start + length))

/-- An address text and its scope, empty when there is none. A percent sign has to be followed by a
scope, which holds no further one. -/
def splitScope? (cs : List Char) : Option (List Char × List Char) :=
  match cutAt? '%' cs with
  | none => some (cs, [])
  | some (address, scope) =>
    if scope.isEmpty || scope.contains '%' then none else some (address, scope)

end NodeLedger.Address
