import NodeLedger.Cloud.Fault
import NodeLedger.Policy.Required

/-!
# EC2 permissions

A permission of EC2 is a protocol with two ports and the address ranges that may use them. It has no
name, so a rule's name is kept in the descriptions of its ranges.

- `Permission.rule?`: the rule that a permission stands for; none for a protocol that the policy
  does not know.
- `Permission.name`: the name of that rule. A description that is a name of the policy wins, then
  the name that the policy gives to the ports, then any description.
- `Permission.ofRule`: the permission that opens a rule to addresses.
-/

namespace NodeLedger.Cloud

open Policy

/-- A member of a record, which may be absent or null. -/
inductive Field (α : Type) where
  | missing
  | null
  | value (a : α)
  deriving Repr, DecidableEq

namespace Field

variable {α : Type}

/-- The value of a member, if it has one. -/
def toOption : Field α → Option α
  | value a => some a
  | _ => none

/-- A member that is null without a value. -/
def ofOption : Option α → Field α
  | some a => value a
  | none => null

/-- A list that may be absent, but not null. -/
def items : Field (List α) → Except ReplyFault (List α)
  | missing => .ok []
  | null => .error .nullInside
  | value items => .ok items

/-- A text that is there and not empty. -/
def text? (field : Field String) : Option String :=
  field.toOption.filter (· != "")

end Field

/-- A range of addresses with a description. -/
structure AddressRange where
  block : Field String
  description : Field String
  deriving Repr, DecidableEq

/-- What EC2 lets into a group. -/
structure Permission where
  protocol : Field String
  low : Field Int
  high : Field Int
  /-- The IPv4 ranges. -/
  ranges : Field (List AddressRange)
  /-- The IPv6 ranges. -/
  wideRanges : Field (List AddressRange)
  deriving Repr, DecidableEq

namespace Permission

/-- The names that the policy on EC2 gives to the port of a rule. -/
def portName? (port : Int) : Option String :=
  if port = rdpPort then some rdpRule.name
  else if port = winRMPort then some winRMRule.name
  else if port = sshPort then some sshRule.name
  else none

/-- The names of the policy on EC2. -/
def knownNames : List String :=
  [rdpRule.name, winRMRule.name, sshRule.name, vpcRule.name]

/-- A port as text. -/
def portText (port : Field Int) : String :=
  match port.toOption with
  | some n => Text.integer n
  | none => "None"

/-- The protocol of the rule that a permission stands for. -/
def protocol? (permission : Permission) : Option Protocol :=
  match permission.protocol with
  | .value "-1" => some .all
  | .value "tcp" | .value "6" => some .tcp
  | _ => none

/-- The ports of the rule that a permission stands for. -/
def ports (permission : Permission) : Protocol → String
  | .all => allPorts
  | .tcp =>
    if permission.low.toOption = permission.high.toOption then portText permission.low
    else s!"{portText permission.low}-{portText permission.high}"

/-- The name that the policy gives to the ports of a permission. -/
def nameOfPorts? (permission : Permission) : Option String :=
  if permission.low.toOption = permission.high.toOption then
    permission.low.toOption.bind portName?
  else none

/-- The name of the rule that a permission stands for, given the descriptions of its ranges. One
permission holds all ranges of a protocol and its ports, so the descriptions may belong to unrelated
ranges. -/
def name (permission : Permission) (protocol : Protocol) (descriptions : List String) : String :=
  match descriptions.find? knownNames.contains with
  | some description => description
  | none =>
    match protocol with
    | .all => vpcRule.name
    | .tcp =>
      (permission.nameOfPorts?.or descriptions.head?).getD
        s!"tcp-{portText permission.low}-{portText permission.high}"

/-- The rule that a permission stands for. -/
def rule? (permission : Permission) : Except ReplyFault (Option SecurityRule) :=
  match permission.protocol? with
  | none => .ok none
  | some protocol => do
    let ranges ← permission.ranges.items
    let wideRanges ← permission.wideRanges.items
    return some {
      name := some (permission.name protocol (ranges.filterMap (·.description.text?)))
      protocol := protocol
      sources := ranges.filterMap (·.block.text?) ++ wideRanges.filterMap (·.block.text?)
      ports := permission.ports protocol
      priority := none }

/-- The address is one of IPv6. -/
def isWide (address : String) : Bool :=
  address.toList.contains ':'

/-- The lowest and the highest port there are. -/
def portLimits : Int × Int := (0, 65535)

/-- The permission that opens a rule to addresses. -/
def ofRule (rule : SecurityRule) (addresses : List String) :
    Except Text.IntegerFault Permission := do
  let range := fun address => AddressRange.mk (.value address) (.ofOption rule.name)
  let wide := (addresses.filter isWide).map range
  let base : Permission := {
    protocol := .value "-1"
    low := .missing
    high := .missing
    ranges := .value ((addresses.filter fun a => !isWide a).map range)
    wideRanges := if wide.isEmpty then .missing else .value wide }
  match rule.protocol with
  | .all => return base
  | .tcp =>
    let (low, high) := (← rule.bounds).getD portLimits
    return { base with protocol := .value "tcp", low := .value low, high := .value high }

end Permission

end NodeLedger.Cloud
