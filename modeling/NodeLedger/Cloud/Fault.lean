import NodeLedger.Cloud.Outside
import NodeLedger.Text.CodeText

/-!
# Faults of a cloud operation

- `ProviderFault`: why an operation on groups or instances failed, each with the failure of the
  outside world that caused it.
- `ReplyFault`: an answer of EC2 that lacks what its readers count on.
-/

namespace NodeLedger.Cloud

/-- Why an operation on a cloud failed. -/
inductive ProviderFault where
  | groupLookup (name : String) (cause : OutsideFault)
  | noNetwork
  | noLocation
  | groupCreation (name : String) (cause : OutsideFault)
  | groupDescription (group : CodeText) (cause : OutsideFault)
  | authorization (group : CodeText) (cause : OutsideFault)
  | instanceListing (group : CodeText) (cause : OutsideFault)
  | groupInUse (group : CodeText)
  | groupDeletion (group : CodeText) (cause : OutsideFault)
  | groupReading (name : CodeText) (cause : OutsideFault)
  | ruleUpdate (group : CodeText) (rule : String) (cause : OutsideFault)
  | ruleDeletion (group : CodeText) (rule : String) (cause : OutsideFault)
  | unknownGroup (group : CodeText)
  deriving Repr, DecidableEq

/-- The wording of a fault. -/
def ProviderFault.message : ProviderFault → CodeText
  | groupLookup name cause => s!"failed to look up security group {name}: {cause.message}"
  | noNetwork => "a VPC ID is required to create a security group"
  | noLocation => "a location is required to create a network security group"
  | groupCreation name cause => s!"failed to create security group {name}: {cause.message}"
  | groupDescription group cause =>
    "failed to describe security group " ++ group ++ s!": {cause.message}"
  | authorization group cause =>
    "failed to authorize ingress on " ++ group ++ s!": {cause.message}"
  | instanceListing group cause =>
    "failed to list instances of " ++ group ++ s!": {cause.message}"
  | groupInUse group => "security group " ++ group ++ " is in use"
  | groupDeletion group cause =>
    "failed to delete security group " ++ group ++ s!": {cause.message}"
  | groupReading name cause =>
    "cannot obtain the security group " ++ name ++ s!": {cause.message}"
  | ruleUpdate group rule cause =>
    "unable to create or update " ++ group ++ s!"/{rule}: {cause.message}"
  | ruleDeletion group rule cause => "unable to delete " ++ group ++ s!"/{rule}: {cause.message}"
  | unknownGroup group => "security group " ++ group ++ " does not exist"

/-- What is wrong with an answer. -/
inductive ReplyFault where
  /-- A member that must be there is absent. -/
  | memberMissing (name : String)
  /-- A null stands where a list or a text is needed. -/
  | nullInside
  /-- The answer itself is null. -/
  | nullAnswer
  deriving Repr, DecidableEq

end NodeLedger.Cloud
