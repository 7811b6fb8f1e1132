import NodeLedger.Address.V6
import NodeLedger.Text.Blank

/-!
# Address blocks and their canonical text

The source of a rule is written in many ways: with or without prefix length, with a mask, with host
bits set, with IPv6 groups in full or left out. Two spellings name the same block exactly when their
canonical texts are equal. A token that is no address block, such as the service tags `*`,
`Internet` and `VirtualNetwork`, is its own canonical text.

- `Block.read?`, `Block.show`: a block in text.
- `canonical`: the canonical text of a source.
-/

namespace NodeLedger.Address

open Text

/-- A block of addresses. The bits of `base` past the prefix are clear. -/
inductive Block where
  | v4 (base length : Nat)
  | v6 (base : Nat) (scope : List Char) (length : Nat)
  deriving Repr, DecidableEq

/-- The block of an IPv4 address and a prefix length. -/
def Block.ofV4 (address length : Nat) : Block :=
  .v4 (clearHost 32 length address) length

/-- The block of an IPv6 address and a prefix length. A scope names one interface of one host, so it
goes when a host bit has to be cleared. -/
def Block.ofV6 (address : Nat) (scope : List Char) (length : Nat) : Block :=
  let base := clearHost 128 length address
  .v6 base (if base = address then scope else []) length

/-- A block in text: an address, or an address and what limits it after a slash. -/
def Block.read? (cs : List Char) : Option Block :=
  let v6 (address : List Char) (length : Nat) : Option Block := do
    let (groups, scope) ← splitScope? address
    return .ofV6 (← readV6? groups) scope length
  match fields '/' cs with
  | [address] => (readV4? address).map (.ofV4 · 32) <|> v6 address 128
  | [address, limit] =>
    (do return .ofV4 (← readV4? address) (← v4Length? limit)) <|>
    (do v6 address (← prefixLength? 128 limit))
  | _ => none

/-- The text of a block. -/
def Block.show : Block → List Char
  | v4 base length => showV4 base ++ '/' :: decimal length
  | v6 base scope length =>
    showV6 base ++ (if scope.isEmpty then [] else '%' :: scope) ++ '/' :: decimal length

/-- The canonical text of a source, as characters. -/
def canonicalChars (cs : List Char) : List Char :=
  let token := stripChars cs
  match Block.read? token with
  | some block => block.show
  | none => token

/-- The canonical text of a source. -/
def canonical (source : String) : String :=
  String.ofList (canonicalChars source.toList)

end NodeLedger.Address
