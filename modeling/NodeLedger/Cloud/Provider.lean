import NodeLedger.Cloud.GroupId
import NodeLedger.Job
import NodeLedger.Policy.Reconcile

/-!
# Cloud providers

- `Provider`: what a run needs of a cloud. Groups and instances are known by identifiers.
- `workerGroupName`: the usual name of the workers' security group.
- `Job.expecting`: a request some of whose failures an operation explains.
-/

namespace NodeLedger

open Cloud

/-- A request some of whose failures are expected, and reported as the fault that they cause. -/
def Job.expecting {σ α : Type} (isExpected : OutsideFault → Bool)
    (explain : OutsideFault → ProviderFault) (request : Ask σ α) : Job σ α := do
  match ← Job.ask request with
  | .ok answer => return answer
  | .error fault => throw (if isExpected fault then .provider (explain fault) else .outside fault)

namespace Cloud

/-- What a run needs of a cloud. -/
structure Provider (σ : Type) where
  /-- The rules that a group must hold. -/
  policy : List Policy.RequiredRule
  /-- Groups that were found, not created, are recorded too, so that the rules added to them are
  taken away in the end. -/
  recordsFoundGroups : Bool
  /-- The name of the group of a cluster. -/
  groupName : (cluster : String) → String
  /-- The group of a name; null if none is known. -/
  find : (name : String) → Job σ GroupId
  /-- A new group of a name. -/
  create : (name : String) → Job σ GroupId
  /-- The inbound rules of a group. -/
  rules : (group : GroupId) → Job σ (List Policy.SecurityRule)
  /-- Create or update rules, given the rules observed before. -/
  apply : (group : GroupId) → (changes current : List Policy.SecurityRule) → Job σ Unit
  /-- Undo what was done to a group. -/
  delete : (group : GroupId) → Job σ Unit
  /-- Terminate instances; the ones that went away are returned. -/
  terminate : (instances : List CodeText) → Job σ (List CodeText)

/-- The usual name of the workers' security group of a cluster. -/
def workerGroupName (cluster : String) : String :=
  String.intercalate "-" [cluster, "windows", "worker", "sg"]

end Cloud

end NodeLedger
