import NodeLedger.Cloud.Nsg.Client
import NodeLedger.Cloud.Provider

/-!
# Network security groups on Azure

The group of a cluster is shared with its other machines. So rules are added to it and taken away
again, and the group itself is never deleted. A group is identified by its name.

- `Nsg.provider`: the cloud operations on Azure.
- `Nsg.apply`: one change after the other; the first failure ends it.
- `Nsg.delete`: the rules of the policy are taken away by their names. A rule that is gone already is
  no failure.
-/

namespace NodeLedger.Cloud.Nsg

open Policy

variable {σ : Type}

/-- The service answers with an error. -/
def isResponseFault : OutsideFault → Bool
  | .response .. => true
  | _ => false

/-- The service answers that there is no such resource. -/
def isNotFound : OutsideFault → Bool
  | .response .notFound _ => true
  | _ => false

/-- The name of the group of a cluster; one group serves all machines of it. -/
def groupName (cluster : String) : String :=
  cluster ++ "-nsg"

/-- The group of a name. -/
def find (client : Client σ) (resources name : String) : Job σ GroupId := do
  match ← Job.ask (client.getGroup resources (some name)) with
  | .ok answer => return answer.group
  | .error fault =>
    if isNotFound fault then return none
    else
      throw (if isResponseFault fault then .provider (.groupReading name fault) else .outside fault)

/-- A new group at the location. -/
def create (client : Client σ) (resources : String) (location : Option String) (name : String) :
    Job σ GroupId := do
  match location.filter (· != "") with
  | none => throw (.provider .noLocation)
  | some location =>
    let answer ← Job.expecting isResponseFault (.groupCreation name)
      (Ask.finished (client.createGroup resources name location))
    Job.log .info ("Created network security group " ++ answer.group.label)
    return answer.group

/-- The inbound rules of a group. -/
def rules (client : Client σ) (resources : String) (group : GroupId) :
    Job σ (List SecurityRule) := do
  let answer ← Job.expecting isResponseFault (.groupReading group.label)
    (client.getGroup resources group)
  return (answer.rules.getD []).filterMap NsgRule.rule?

/-- Create or update rules. A rule is replaced as a whole, and a change carries every source of the
rule that it changes. -/
def apply (client : Client σ) (resources : String) (group : GroupId) :
    List SecurityRule → Job σ Unit
  | [] => return
  | change :: changes => do
    Job.expecting isResponseFault (.ruleUpdate group.label change.label)
      (Ask.finished (client.updateRule resources group change.name (NsgRule.ofRule change)))
    Job.log .info ("Created or updated rule " ++ group.label ++ s!"/{change.label}")
    apply client resources group changes

/-- Take rules away by their names. -/
def deleteRules (client : Client σ) (resources : String) (group : GroupId) :
    List RequiredRule → Job σ Unit
  | [] => return
  | rule :: rules => do
    match ← Job.ask (Ask.finished (client.deleteRule resources group rule.name)) with
    | .ok () => deleteRules client resources group rules
    | .error fault =>
      if isNotFound fault then
        Job.log .debug ("Rule " ++ group.label ++ s!"/{rule.name} was already gone")
        deleteRules client resources group rules
      else
        throw (if isResponseFault fault then .provider (.ruleDeletion group.label rule.name fault)
          else .outside fault)

/-- Take the rules of the policy away from a group. -/
def delete (client : Client σ) (resources : String) (group : GroupId) : Job σ Unit := do
  deleteRules client resources group azureRules
  Job.log .info ("Removed the Windows worker rules from " ++ group.label)

/-- Delete machines; the ones that went away are returned. -/
def terminate (client : Client σ) (resources : String) : List CodeText → Job σ (List CodeText)
  | [] => return []
  | machine :: machines => do
    match ← Job.ask (Ask.finished (client.deleteMachine resources machine)) with
    | .ok () => return machine :: (← terminate client resources machines)
    | .error fault =>
      if isResponseFault fault then
        Job.log .error ("Failed to delete virtual machine " ++ machine ++ s!": {fault.message}")
        terminate client resources machines
      else throw (.outside fault)

/-- The cloud operations on Azure, in a resource group. A location is needed to create groups
only. -/
def provider (client : Client σ) (resources : String) (location : Option String) : Provider σ where
  policy := azureRules
  recordsFoundGroups := true
  groupName := groupName
  find := find client resources
  create := create client resources location
  rules := rules client resources
  apply := fun group changes _ => apply client resources group changes
  delete := delete client resources
  terminate := terminate client resources

end NodeLedger.Cloud.Nsg
