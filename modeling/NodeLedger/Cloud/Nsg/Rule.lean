import NodeLedger.Policy.Required

/-!
# Rules of a network security group

A network security group of Azure has named rules. A rule may leave any of its members unset; it
names one source or several, and one port range or several.

- `NsgRule.rule?`: the inbound rule that allows what the policy knows about; none for any other.
- `NsgRule.ofRule`: the rule of a group that says what an inbound rule says.
- `NsgRule.rule?_ofRule`: **an inbound rule with ports comes back** from the rule made of it.
-/

namespace NodeLedger.Cloud

open Policy

/-- A rule of a network security group. -/
structure NsgRule where
  name : Option String
  protocol : Option String
  sourcePorts : Option String
  source : Option String
  sources : Option (List String)
  destination : Option String
  ports : Option String
  portRanges : Option (List String)
  access : Option String
  direction : Option String
  priority : Option Int
  deriving Repr, DecidableEq

namespace NsgRule

/-- A member that is unset or empty reads as another text. -/
def orElse (member : Option String) (otherwise : String) : String :=
  (member.filter (· != "")).getD otherwise

/-- The protocol that a rule is about, if the policy knows it. -/
def protocol? (rule : NsgRule) : Option Protocol :=
  match Text.lowerAscii (rule.protocol.getD "") with
  | "*" => some .all
  | "tcp" => some .tcp
  | _ => none

/-- The rule lets traffic in. -/
def letsIn (rule : NsgRule) : Bool :=
  Text.lowerAscii (orElse rule.direction "Inbound") == "inbound"
    && Text.lowerAscii (orElse rule.access "Allow") == "allow"

/-- The sources of a rule: its one source first, unless it is among the several. -/
def allSources (rule : NsgRule) : List String :=
  let several := rule.sources.getD []
  match rule.source.filter (· != "") with
  | some source => if several.contains source then several else source :: several
  | none => several

/-- The ports of a rule: its one range, or else its several ranges between commas. -/
def allPortRanges (rule : NsgRule) : String :=
  match rule.ports.filter (· != ""), rule.portRanges with
  | some range, _ => range
  | none, some ranges => orElse (some (String.intercalate "," ranges)) allPorts
  | none, none => allPorts

/-- The inbound rule that a rule stands for. -/
def rule? (rule : NsgRule) : Option SecurityRule :=
  if !rule.letsIn then none
  else
    rule.protocol?.map fun protocol =>
      { name := rule.name
        protocol := protocol
        sources := rule.allSources
        ports := rule.allPortRanges
        priority := rule.priority }

/-- The word for a protocol. -/
def protocolWord : Protocol → String
  | .all => "*"
  | .tcp => "Tcp"

/-- The rule that says what an inbound rule says. Its sources are always listed, even a single
one; it matches every port of a source and every destination. -/
def ofRule (rule : SecurityRule) : NsgRule where
  name := rule.name
  protocol := some (protocolWord rule.protocol)
  sourcePorts := some "*"
  source := none
  sources := some rule.sources
  destination := some "*"
  ports := some rule.ports
  portRanges := none
  access := some "Allow"
  direction := some "Inbound"
  priority := rule.priority

/-- **What is said is understood**: the rule of a group that was made from an inbound rule stands for
that rule. Only empty ports do not come back; they read as every port. -/
theorem rule?_ofRule {rule : SecurityRule} (h : rule.ports ≠ "") :
    (ofRule rule).rule? = some rule := by
  have hports : (ofRule rule).allPortRanges = rule.ports := by
    simp [allPortRanges, ofRule, Option.filter, h]
  have hin : (ofRule rule).letsIn = true := by
    have hdirection : Text.lowerAscii (orElse (some "Inbound") "Inbound") = "inbound" := by
      decide +kernel
    have haccess : Text.lowerAscii (orElse (some "Allow") "Allow") = "allow" := by
      decide +kernel
    simp [letsIn, ofRule, hdirection, haccess]
  have hprotocol : (ofRule rule).protocol? = some rule.protocol := by
    have hall : Text.lowerAscii (protocolWord .all) = "*" := by decide +kernel
    have htcp : Text.lowerAscii (protocolWord .tcp) = "tcp" := by decide +kernel
    cases hrule : rule.protocol <;> simp [protocol?, ofRule, hrule, hall, htcp]
  have hsources : (ofRule rule).allSources = rule.sources := rfl
  simp only [rule?, hin, hprotocol, hsources, hports]
  rfl

end NsgRule

end NodeLedger.Cloud
