import NodeLedger.Cloud.Ec2.Client
import NodeLedger.Cloud.Provider

/-!
# Security groups on EC2

EC2 only ever adds to a group: what a rule asks for is compared with what the group admits on the
same protocol and ports, and only the addresses that are missing there are authorized.

- `Ec2.provider`: the cloud operations on EC2.
- `Ec2.permissionsFor`: what has to be authorized for a list of changes.
- `Ec2.isInUse`: whether instances still hold on to a group.
-/

namespace NodeLedger.Cloud.Ec2

open Policy

variable {σ : Type}

/-- The description of the groups that are created. -/
def groupDescription : String := "security group for RDP and all traffic within VPC"

/-- EC2 refuses the operation. -/
def isClientFault : OutsideFault → Bool
  | .client .. => true
  | _ => false

/-- The awaited state was not reached. -/
def isWaiterFault : OutsideFault → Bool
  | .waiter .. => true
  | _ => false

/-- An answer that is not null. -/
def present {α : Type} (ifNull : ReplyFault) : Option α → Except Fault α
  | some answer => .ok answer
  | none => .error (.reply ifNull)

/-- A part of an answer. -/
def part {α : Type} (result : Except ReplyFault α) : Except Fault α :=
  result.mapError .reply

/-- The identifier in the first of the groups. -/
def firstGroup (answer : GroupsAnswer) : Except ReplyFault GroupId :=
  match answer.groups with
  | .value (first :: _) =>
    match first.group with
    | .missing => .error (.memberMissing "GroupId")
    | group => .ok group.toOption
  | _ => .ok none

/-- The group of a name in the network, if one is known. -/
def find (client : Client σ) (network : Option String) (name : String) : Job σ GroupId := do
  let query := GroupQuery.named name (network.filter (· != ""))
  let answer ← Job.expecting isClientFault (.groupLookup name) (client.describeGroups query)
  Job.ofExcept do
    part (firstGroup (← present .nullAnswer answer))

/-- The identifier of a group that was created. -/
def createdGroup (answer : CreationAnswer) : Except ReplyFault GroupId :=
  match answer.group with
  | .missing => .error (.memberMissing "GroupId")
  | group => .ok group.toOption

/-- A new group in the network. -/
def create (client : Client σ) (network : Option String) (name : String) : Job σ GroupId := do
  match network.filter (· != "") with
  | none => throw (.provider .noNetwork)
  | some network =>
    let answer ← Job.expecting isClientFault (.groupCreation name)
      (client.createGroup name groupDescription network)
    let group : GroupId ← Job.ofExcept do
      part (createdGroup (← present .nullInside answer))
    Job.log .info (s!"Created security group {name} (" ++ group.label ++ ")")
    return group

/-- The rules of permissions; the permissions that the policy does not know are logged. -/
def readPermissions (group : GroupId) : List Permission → Job σ (List SecurityRule)
  | [] => return []
  | permission :: permissions => do
    match ← Job.ofExcept (part permission.rule?) with
    | some rule => return rule :: (← readPermissions group permissions)
    | none =>
      let protocol := permission.protocol.toOption.getD "None"
      Job.log .debug (s!"Skipping {protocol} rule on " ++ group.label)
      readPermissions group permissions

/-- The rules of the groups in an answer. -/
def readGroups (group : GroupId) : List GroupDescription → Job σ (List SecurityRule)
  | [] => return []
  | description :: descriptions => do
    let permissions ← Job.ofExcept (part description.permissions.items)
    let rules ← readPermissions group permissions
    return rules ++ (← readGroups group descriptions)

/-- The rules of a group. -/
def rules (client : Client σ) (group : GroupId) : Job σ (List SecurityRule) := do
  let answer ← Job.expecting isClientFault (.groupDescription group.label)
    (client.describeGroups (.identified group))
  let groups ← Job.ofExcept do
    part (← present .nullAnswer answer).groups.items
  readGroups group groups

/-- The first rule that admits addresses where a rule asks for them: on the same protocol, and on the
same ports unless the protocol has none. -/
def counterpart (rule : SecurityRule) : List SecurityRule →
    Except Text.IntegerFault (Option SecurityRule)
  | [] => .ok none
  | current :: rest =>
    if current.protocol ≠ rule.protocol then counterpart rule rest
    else if rule.protocol = .all then .ok (some current)
    else do
      let observed ← current.bounds
      let wanted ← rule.bounds
      if observed = wanted then return some current else counterpart rule rest

/-- The addresses of a rule that nothing admits yet. -/
def missingSources (rule : SecurityRule) (counterpart : Option SecurityRule) : List String :=
  match counterpart with
  | none => rule.sources
  | some current => rule.sources.filter fun source => !current.allows source

/-- What has to be authorized for a change, if anything. -/
def permissionFor? (current : List SecurityRule) (rule : SecurityRule) :
    Except Text.IntegerFault (Option Permission) := do
  let addresses := missingSources rule (← counterpart rule current)
  if addresses.isEmpty then return none else return some (← Permission.ofRule rule addresses)

/-- What has to be authorized for a list of changes. -/
def permissionsFor (current : List SecurityRule) :
    List SecurityRule → Except Text.IntegerFault (List Permission)
  | [] => .ok []
  | rule :: rules => do
    let permission ← permissionFor? current rule
    return permission.toList ++ (← permissionsFor current rules)

/-- Authorize in one request what the changes ask for; nothing is requested for nothing. -/
def apply (client : Client σ) (group : GroupId) (changes current : List SecurityRule) :
    Job σ Unit := do
  let permissions ← Job.ofExcept ((permissionsFor current changes).mapError .number)
  unless permissions.isEmpty do
    Job.expecting isClientFault (.authorization group.label) (client.authorize group permissions)
    Job.log .info (s!"Authorized {permissions.length} ingress rules on " ++ group.label)

/-- The identifiers of instances, each of which may be null. -/
def readInstances : List (Field CodeText) → Except ReplyFault (List (Option CodeText))
  | [] => .ok []
  | .missing :: _ => .error (.memberMissing "InstanceId")
  | machine :: machines => do return machine.toOption :: (← readInstances machines)

/-- The identifiers of the instances in reservations. -/
def readReservations : List (Field (List (Field CodeText))) →
    Except ReplyFault (List (Option CodeText))
  | [] => .ok []
  | reservation :: reservations => do
    let machines ← readInstances (← reservation.items)
    return machines ++ (← readReservations reservations)

/-- Whether instances still hold on to a group; they are logged. -/
def isInUse (client : Client σ) (group : GroupId) : Job σ Bool := do
  let answer ← Job.expecting isClientFault (.instanceListing group.label)
    (client.describeInstances group)
  let holders ← Job.ofExcept do
    part (readReservations (← part (← present .nullAnswer answer).reservations.items))
  if holders.isEmpty then return false
  else
    match holders.mapM id with
    | none => throw (.reply .nullInside)
    | some machines =>
      Job.log .info ("Security Group " ++ group.label ++ " is in use by: "
        ++ CodeText.join ", " machines)
      return true

/-- Delete a group that no instance holds on to. -/
def delete (client : Client σ) (group : GroupId) : Job σ Unit := do
  if ← isInUse client group then throw (.provider (.groupInUse group.label))
  Job.expecting isClientFault (.groupDeletion group.label) (client.deleteGroup group)
  Job.log .info ("Deleted security group " ++ group.label)

/-- Request the termination of instances; the ones that EC2 agreed to terminate are returned. -/
def requestTermination (client : Client σ) : List CodeText → Job σ (List CodeText)
  | [] => return []
  | machine :: machines => do
    match ← Job.ask (client.terminate machine) with
    | .ok () => return machine :: (← requestTermination client machines)
    | .error fault =>
      if isClientFault fault then
        Job.log .error ("Failed to terminate instance " ++ machine ++ s!": {fault.message}")
        requestTermination client machines
      else throw (.outside fault)

/-- Wait for instances to go away; the ones that did are returned. -/
def awaitTermination (client : Client σ) : List CodeText → Job σ (List CodeText)
  | [] => return []
  | machine :: machines => do
    match ← Job.ask (client.wait machine) with
    | .ok () => return machine :: (← awaitTermination client machines)
    | .error fault =>
      if isWaiterFault fault then
        Job.log .error ("Timeout waiting for instance " ++ machine
          ++ s!" to terminate: {fault.message}")
        awaitTermination client machines
      else throw (.outside fault)

/-- Terminate instances. All terminations are requested before the first one is awaited. -/
def terminate (client : Client σ) (machines : List CodeText) : Job σ (List CodeText) := do
  let requested ← requestTermination client machines
  Job.demand (client.waiter "instance_terminated")
  awaitTermination client requested

/-- The cloud operations on EC2. A network is needed to create groups only. -/
def provider (client : Client σ) (network : Option String) : Provider σ where
  policy := ec2Rules
  recordsFoundGroups := false
  groupName := workerGroupName
  find := find client network
  create := create client network
  rules := rules client
  apply := apply client
  delete := delete client
  terminate := terminate client

end NodeLedger.Cloud.Ec2
