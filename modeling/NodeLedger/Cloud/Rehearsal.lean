import NodeLedger.Cloud.Access

/-!
# Rehearsals

A rehearsal stands for everything outside the program: each request gets the next of the replies
that were prepared for it, or a plain reply when none is left, and every request is written down. A
rehearsal also keeps groups of its own, for runs without any cloud.

- `Script`: the prepared replies of each request.
- `Call`: a request as it is written down.
- `Rehearsal.clouds`: all requests, answered by a script.
- `Rehearsal.groupsProvider`: a provider whose groups are kept in the rehearsal itself.
-/

namespace NodeLedger.Cloud

open Policy

/-- A prepared reply. -/
abbrev Reply (α : Type) : Type := Except OutsideFault α

/-- The prepared replies. A change that is waited for may fail at its start or at its end. -/
structure Script where
  web : List (Reply WebAnswer) := []
  ec2Session : List (Reply Unit) := []
  ec2Open : List (Reply Unit) := []
  describeGroups : List (Reply (Option Ec2.GroupsAnswer)) := []
  createGroup : List (Reply (Option Ec2.CreationAnswer)) := []
  authorize : List (Reply Unit) := []
  describeInstances : List (Reply (Option Ec2.InstancesAnswer)) := []
  deleteGroup : List (Reply Unit) := []
  terminate : List (Reply Unit) := []
  waiter : List (Reply Unit) := []
  wait : List (Reply Unit) := []
  azureCredential : List (Reply Unit) := []
  networkOpen : List (Reply Unit) := []
  machinesOpen : List (Reply Unit) := []
  getNsg : List (Reply Nsg.GroupAnswer) := []
  createNsg : List (Reply (Reply Nsg.GroupAnswer)) := []
  updateRule : List (Reply (Reply Unit)) := []
  deleteRule : List (Reply (Reply Unit)) := []
  deleteMachine : List (Reply (Reply Unit)) := []

/-- The changes that are waited for. -/
inductive Change where
  | nsg
  | rule
  | ruleDeletion
  | machineDeletion
  deriving Repr, DecidableEq

/-- A request as it is written down. -/
inductive Call where
  | web (url : String) (timeout : Int)
  | ec2Session (profile : Option String) (region : String)
  | ec2Open
  | describeGroups (query : Ec2.GroupQuery)
  | createGroup (name description network : String)
  | authorize (group : GroupId) (permissions : List Permission)
  | describeInstances (group : GroupId)
  | deleteGroup (group : GroupId)
  | terminate (machine : CodeText)
  | waiter (event : String)
  | wait (machine : CodeText)
  | azureCredential
  | networkOpen (subscription : String)
  | machinesOpen (subscription : String)
  | getNsg (resources : String) (group : GroupId)
  | createNsg (resources name location : String)
  | updateRule (resources : String) (group : GroupId) (name : Option String) (rule : NsgRule)
  | deleteRule (resources : String) (group : GroupId) (name : String)
  | deleteMachine (resources : String) (machine : CodeText)
  /-- Waiting for the end of a change. -/
  | finish (change : Change)
  | keptFind (name : String)
  | keptCreate (name : String)
  | keptList (group : GroupId)
  | keptApply (group : GroupId) (changes : List SecurityRule) (current : List (Option String))
  | keptDelete (group : GroupId)
  | keptTerminate (machines : List CodeText)
  deriving Repr, DecidableEq

/-- A group that a rehearsal keeps. -/
structure KeptGroup where
  group : GroupId
  name : String
  rules : List SecurityRule
  deriving Repr, DecidableEq

/-- The state of a rehearsal. -/
structure Rehearsal where
  script : Script
  calls : List Call
  groups : List KeptGroup
  /-- How many groups were created. -/
  created : Nat

namespace Rehearsal

/-- The rehearsal with one more request written down. -/
def record (rehearsal : Rehearsal) (call : Call) : Rehearsal :=
  { rehearsal with calls := rehearsal.calls ++ [call] }

/-- Write a request down, and take the next of its replies. -/
def next {α : Type} (call : Call) (replies : Script → List α) (keep : Script → List α → Script)
    (otherwise : α) (rehearsal : Rehearsal) : α × Rehearsal :=
  let rehearsal := rehearsal.record call
  match replies rehearsal.script with
  | [] => (otherwise, rehearsal)
  | reply :: rest => (reply, { rehearsal with script := keep rehearsal.script rest })

/-- A change that is started now and waited for later. -/
def pending {α : Type} (change : Change) (start : Rehearsal → Reply (Reply α) × Rehearsal) :
    Ask Rehearsal (Ask Rehearsal α) := fun rehearsal =>
  match start rehearsal with
  | (.error fault, rehearsal) => (.error fault, rehearsal)
  | (.ok outcome, rehearsal) =>
    (.ok fun rehearsal => (outcome, rehearsal.record (.finish change)), rehearsal)

/-- The answer of the address service when none is prepared. -/
def plainWebAnswer : WebAnswer := ⟨200, "203.0.113.7\n"⟩

/-- The answer to the creation of a group when none is prepared. -/
def plainCreation : Ec2.CreationAnswer := ⟨.value (.ofString "sg-default")⟩

/-- The requests to EC2. -/
def ec2 : Ec2.Client Rehearsal where
  describeGroups query :=
    next (.describeGroups query) (·.describeGroups)
      (fun script rest => { script with describeGroups := rest }) (.ok (some ⟨.missing⟩))
  createGroup name description network :=
    next (.createGroup name description network) (·.createGroup)
      (fun script rest => { script with createGroup := rest }) (.ok (some plainCreation))
  authorize group permissions :=
    next (.authorize group permissions) (·.authorize)
      (fun script rest => { script with authorize := rest }) (.ok ())
  describeInstances group :=
    next (.describeInstances group) (·.describeInstances)
      (fun script rest => { script with describeInstances := rest }) (.ok (some ⟨.missing⟩))
  deleteGroup group :=
    next (.deleteGroup group) (·.deleteGroup)
      (fun script rest => { script with deleteGroup := rest }) (.ok ())
  terminate machine :=
    next (.terminate machine) (·.terminate)
      (fun script rest => { script with terminate := rest }) (.ok ())
  waiter event :=
    next (.waiter event) (·.waiter) (fun script rest => { script with waiter := rest }) (.ok ())
  wait machine :=
    next (.wait machine) (·.wait) (fun script rest => { script with wait := rest }) (.ok ())

/-- The requests to Azure. -/
def nsg : Nsg.Client Rehearsal where
  getGroup resources group :=
    next (.getNsg resources group) (·.getNsg) (fun script rest => { script with getNsg := rest })
      (.ok ⟨group, none⟩)
  createGroup resources name location :=
    pending .nsg (next (.createNsg resources name location) (·.createNsg)
      (fun script rest => { script with createNsg := rest }) (.ok (.ok ⟨some name, none⟩)))
  updateRule resources group name rule :=
    pending .rule (next (.updateRule resources group name rule) (·.updateRule)
      (fun script rest => { script with updateRule := rest }) (.ok (.ok ())))
  deleteRule resources group name :=
    pending .ruleDeletion (next (.deleteRule resources group name) (·.deleteRule)
      (fun script rest => { script with deleteRule := rest }) (.ok (.ok ())))
  deleteMachine resources machine :=
    pending .machineDeletion (next (.deleteMachine resources machine) (·.deleteMachine)
      (fun script rest => { script with deleteMachine := rest }) (.ok (.ok ())))

/-- All requests. -/
def clouds : Clouds Rehearsal where
  web :=
    { get := fun url timeout =>
        next (.web url timeout) (·.web) (fun script rest => { script with web := rest })
          (.ok plainWebAnswer) }
  ec2Session profile region :=
    next (.ec2Session profile region) (·.ec2Session)
      (fun script rest => { script with ec2Session := rest }) (.ok ())
  ec2Open :=
    next .ec2Open (·.ec2Open) (fun script rest => { script with ec2Open := rest }) (.ok ())
  ec2 := ec2
  azureCredential :=
    next .azureCredential (·.azureCredential)
      (fun script rest => { script with azureCredential := rest }) (.ok ())
  networkOpen subscription :=
    next (.networkOpen subscription) (·.networkOpen)
      (fun script rest => { script with networkOpen := rest }) (.ok ())
  machinesOpen subscription :=
    next (.machinesOpen subscription) (·.machinesOpen)
      (fun script rest => { script with machinesOpen := rest }) (.ok ())
  nsg := nsg

/-! ## Kept groups -/

/-- How a provider with kept groups behaves. -/
structure KeptRules where
  policy : List RequiredRule
  recordsFoundGroups : Bool
  /-- The groups that cannot be deleted. -/
  undeletable : List GroupId
  /-- The instances that cannot be terminated. -/
  unterminatable : List CodeText
  /-- Instances that are always reported as terminated. -/
  alwaysTerminated : List CodeText

/-- A request to the rehearsal itself. -/
def within {α : Type} (call : Call)
    (change : Rehearsal → Except ProviderFault α × Rehearsal) : Job Rehearsal α :=
  ExceptT.mk do
    let host ← get
    let (result, outside) := change (host.outside.record call)
    set { host with outside := outside }
    return result.mapError .provider

/-- The kept group of an identifier. -/
def kept (rehearsal : Rehearsal) (group : GroupId) : Except ProviderFault KeptGroup :=
  match rehearsal.groups.find? (·.group == group) with
  | some kept => .ok kept
  | none => .error (.unknownGroup group.label)

/-- The kept groups after a change to the first one of an identifier. -/
def updateFirst (group : GroupId) (change : KeptGroup → KeptGroup) :
    List KeptGroup → List KeptGroup
  | [] => []
  | first :: rest =>
    if first.group == group then change first :: rest else first :: updateFirst group change rest

/-- The provider whose groups are kept in the rehearsal. -/
def groupsProvider (how : KeptRules) : Provider Rehearsal where
  policy := how.policy
  recordsFoundGroups := how.recordsFoundGroups
  groupName := workerGroupName
  find name := within (.keptFind name) fun rehearsal =>
    (.ok ((rehearsal.groups.find? (·.name == name)).bind (·.group)), rehearsal)
  create name := within (.keptCreate name) fun rehearsal =>
    let number := rehearsal.created + 1
    let group := some (.ofString s!"sg-new-{number}")
    (.ok group,
      { rehearsal with created := number, groups := rehearsal.groups ++ [⟨group, name, []⟩] })
  rules group := within (.keptList group) fun rehearsal =>
    ((rehearsal.kept group).map (·.rules), rehearsal)
  apply group changes current :=
    within (.keptApply group changes (current.map (·.name))) fun rehearsal =>
      match rehearsal.kept group with
      | .error fault => (.error fault, rehearsal)
      | .ok _ =>
        let apply := fun kept : KeptGroup => { kept with rules := applyByName kept.rules changes }
        (.ok (), { rehearsal with groups := updateFirst group apply rehearsal.groups })
  delete group := within (.keptDelete group) fun rehearsal =>
    if how.undeletable.contains group then (.error (.groupInUse group.label), rehearsal)
    else
      match rehearsal.kept group with
      | .error fault => (.error fault, rehearsal)
      | .ok _ => (.ok (), { rehearsal with groups := rehearsal.groups.eraseP (·.group == group) })
  terminate machines := within (.keptTerminate machines) fun rehearsal =>
    (.ok ((machines.filter fun machine => !how.unterminatable.contains machine)
      ++ how.alwaysTerminated), rehearsal)

end Rehearsal

end NodeLedger.Cloud
