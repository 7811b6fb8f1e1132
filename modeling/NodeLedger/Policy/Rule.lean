import NodeLedger.Address.Block
import NodeLedger.Policy.Ports

/-!
# Inbound rules

A security rule is what a security group says about inbound traffic: a protocol, a port range and
the sources it admits. A required rule is what a group must say; its source is a fixed one, the
network of the cluster, or the address of the operator who asks.

- `SecurityRule.allows`: a source is admitted under any spelling.
- `SecurityRule.withSource`: the rule extended by one source, unless it admits that source already.
  **No source is lost** (`SecurityRule.sources_isPrefix_withSource`).
- `RequiredRule.source`: the source that a required rule asks for.
- `RequiredRule.isSatisfiedBy`: name, protocol, ports and source of an observed rule are as required.
-/

namespace NodeLedger.Policy

open Address

/-- The protocol of an inbound rule. -/
inductive Protocol where
  | tcp
  | all
  deriving Repr, DecidableEq

/-- The word for a protocol. -/
def Protocol.word : Protocol → String
  | tcp => "tcp"
  | all => "all"

/-- The protocol of a word. -/
def Protocol.ofWord? : String → Option Protocol
  | "tcp" => some .tcp
  | "all" => some .all
  | _ => none

/-- Where the source of a required rule comes from. -/
inductive Scope where
  /-- The current external address of the operator. -/
  | operator
  /-- The address block of the cluster's network. -/
  | network
  deriving Repr, DecidableEq

/-- An inbound rule, observed on a security group or to be applied to one. Some groups hold rules
without a name. -/
structure SecurityRule where
  name : Option String
  protocol : Protocol
  sources : List String
  ports : String
  priority : Option Int
  deriving Repr, DecidableEq

/-- The rule admits the source, under any spelling of it. -/
def SecurityRule.allows (rule : SecurityRule) (source : String) : Bool :=
  rule.sources.any fun s => canonical s == canonical source

/-- The rule with the source added at the end, unless it admits the source already. -/
def SecurityRule.withSource (rule : SecurityRule) (source : String) : SecurityRule :=
  if rule.allows source then rule else { rule with sources := rule.sources ++ [source] }

/-- An added source is admitted. -/
theorem SecurityRule.allows_withSource (rule : SecurityRule) (source : String) :
    (rule.withSource source).allows source = true := by
  unfold withSource
  split
  · assumption
  · simp [allows]

/-- Adding a source takes none away. -/
theorem SecurityRule.sources_isPrefix_withSource (rule : SecurityRule) (source : String) :
    rule.sources <+: (rule.withSource source).sources := by
  unfold withSource
  split
  · exact List.prefix_rfl
  · exact List.prefix_append _ _

/-- The lowest and the highest port of the rule, or nothing for every port. -/
def SecurityRule.bounds (rule : SecurityRule) : Except Text.IntegerFault (Option (Int × Int)) :=
  Policy.bounds rule.ports

/-- The rule's name in messages. -/
def SecurityRule.label (rule : SecurityRule) : String :=
  rule.name.getD "None"

/-- An inbound rule that a worker security group must hold. -/
structure RequiredRule where
  name : String
  protocol : Protocol
  ports : String
  priority : Int
  scope : Scope
  /-- A source that overrides the scope. -/
  fixedSource : Option String
  deriving Repr, DecidableEq

/-- The source that the rule must admit, in canonical text. An empty fixed source counts as none. -/
def RequiredRule.source (required : RequiredRule) (requester network : String) : String :=
  match required.fixedSource.filter (· != "") with
  | some source => canonical source
  | none =>
    match required.scope with
    | .operator => canonical requester
    | .network => canonical network

/-- Name, protocol, ports and source of an observed rule are as required. -/
def RequiredRule.isSatisfiedBy (required : RequiredRule) (rule : SecurityRule) (source : String) :
    Bool :=
  rule.name == some required.name && rule.protocol == required.protocol
    && samePorts rule.ports required.ports && rule.allows source

/-- A new rule that says what is required and no more. -/
def RequiredRule.newRule (required : RequiredRule) (source : String) : SecurityRule where
  name := some required.name
  protocol := required.protocol
  sources := [source]
  ports := required.ports
  priority := some required.priority

/-- An observed rule changed to say what is required. It keeps its sources and its priority. -/
def RequiredRule.updatedRule (required : RequiredRule) (rule : SecurityRule) (source : String) :
    SecurityRule where
  name := rule.name
  protocol := required.protocol
  sources := (rule.withSource source).sources
  ports := required.ports
  priority := some (rule.priority.getD required.priority)

end NodeLedger.Policy
