import NodeLedger.Policy.Rule
import NodeLedger.Text.Blank

/-!
# The required rules of each cloud

The operator reaches a worker by WinRM (which also bootstraps it), by RDP and by SSH; the other
machines of the cluster reach it on every port. The two clouds differ in the rule for the cluster's
network only.

- `ec2Rules`, `azureRules`: the two policies.
- `rulesFor`: the policy of a cloud by its name, in any case.
-/

namespace NodeLedger.Policy

/-- The port of WinRM over HTTPS. -/
def winRMPort : Nat := 5986

/-- The port of remote desktop. -/
def rdpPort : Nat := 3389

/-- The port of secure shell. -/
def sshPort : Nat := 22

/-- A required rule that opens one TCP port to the operator. -/
def operatorRule (name : String) (port : Nat) (priority : Int) : RequiredRule where
  name := name
  protocol := .tcp
  ports := String.ofList (Text.decimal port)
  priority := priority
  scope := .operator
  fixedSource := none

/-- A required rule that opens everything to the cluster's network. -/
def networkRule (name ports : String) : RequiredRule where
  name := name
  protocol := .all
  ports := ports
  priority := 602
  scope := .network
  fixedSource := none

/-- Bootstrapping and administration. -/
def winRMRule : RequiredRule := operatorRule "WinRM" winRMPort 600

/-- Remote desktop. -/
def rdpRule : RequiredRule := operatorRule "RDP" rdpPort 601

/-- Secure shell. -/
def sshRule : RequiredRule := operatorRule "SSH" sshPort 603

/-- Traffic within an EC2 network. -/
def vpcRule : RequiredRule := networkRule "vpc_traffic" allPorts

/-- Traffic within an Azure network. -/
def vnetRule : RequiredRule := networkRule "vnet_traffic" "1-65535"

/-- The policy on EC2. -/
def ec2Rules : List RequiredRule := [winRMRule, rdpRule, vpcRule, sshRule]

/-- The policy on Azure. -/
def azureRules : List RequiredRule := [winRMRule, rdpRule, vnetRule, sshRule]

/-- The policy of a cloud by its name, in any case, or nothing for another cloud. -/
def rulesFor? (cloud : String) : Option (List RequiredRule) :=
  match Text.lowerAscii cloud with
  | "aws" => some ec2Rules
  | "azure" => some azureRules
  | _ => none

end NodeLedger.Policy
