import NodeLedger.Cloud.Ec2.Permission
import NodeLedger.Cloud.GroupId

/-!
# Requests to EC2

- `Ec2.Client`: the requests, each with what EC2 answers.
- `Ec2.GroupsAnswer`, `Ec2.InstancesAnswer`: answers as they come, with members that may be absent.
-/

namespace NodeLedger.Cloud.Ec2

/-- Which groups are asked for. -/
inductive GroupQuery where
  /-- The groups of a name, all of them or those in a network. -/
  | named (name : String) (network : Option String)
  | identified (group : GroupId)
  deriving Repr, DecidableEq

/-- A group as EC2 describes it. -/
structure GroupDescription where
  group : Field CodeText
  permissions : Field (List Permission)
  deriving Repr, DecidableEq

/-- The answer to a question for groups. -/
structure GroupsAnswer where
  groups : Field (List GroupDescription)
  deriving Repr, DecidableEq

/-- The answer to the creation of a group. -/
structure CreationAnswer where
  group : Field CodeText
  deriving Repr, DecidableEq

/-- The answer to a question for instances: the identifiers of the instances in each reservation. -/
structure InstancesAnswer where
  reservations : Field (List (Field (List (Field CodeText))))
  deriving Repr, DecidableEq

/-- The requests to EC2. An answer may be null. -/
structure Client (σ : Type) where
  describeGroups : GroupQuery → Ask σ (Option GroupsAnswer)
  createGroup : (name description network : String) → Ask σ (Option CreationAnswer)
  authorize : (group : GroupId) → List Permission → Ask σ Unit
  describeInstances : (group : GroupId) → Ask σ (Option InstancesAnswer)
  deleteGroup : (group : GroupId) → Ask σ Unit
  terminate : (machine : CodeText) → Ask σ Unit
  /-- Get ready to wait for an event. -/
  waiter : (event : String) → Ask σ Unit
  /-- Wait for the event at an instance. -/
  wait : (machine : CodeText) → Ask σ Unit

end NodeLedger.Cloud.Ec2
