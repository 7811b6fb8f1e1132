import NodeLedger.Cloud.Provider
import NodeLedger.Ledger.Credentials
import NodeLedger.Ledger.Update

/-!
# Provisioning

One run brings a cloud and a ledger together: the group of a cluster is found or created and made to
comply with the policy, created instances are recorded, and in the end everything that the ledger
remembers is taken down.

- `Provisioning.ensureGroup`: find or create the group, make it comply, and record it. It is recorded
  last, so a group whose rules could not be applied is not recorded.
- `Provisioning.trackInstance`: record an instance, with its credentials in a file beside the ledger.
- `Provisioning.teardown`: take down what the ledger remembers. A failure is logged and the rest goes
  on; only what went away is forgotten.
-/

namespace NodeLedger

open Cloud

/-- A run against one cloud with one ledger file. -/
structure Provisioning (σ : Type) where
  provider : Provider σ
  ledgerPath : CodeText
  /-- The operator's address. -/
  ownAddress : Job σ String

/-- What a teardown achieved. -/
structure Teardown where
  terminated : List CodeText
  deletedGroups : List CodeText
  failed : List CodeText
  deriving Repr, DecidableEq

namespace Provisioning

variable {σ : Type}

/-- The directory of the ledger file. -/
def directory (run : Provisioning σ) : CodeText :=
  let parent := Path.parent run.ledgerPath
  if parent = "" then "." else parent

/-- The credentials file of an instance. -/
def credentialsPath (run : Provisioning σ) (machine : CodeText) : CodeText :=
  Path.join run.directory machine

/-- A job whose faults of a family are handled; other faults stay faults. -/
def handling {α : Type} (family : FaultClass) (job : Job σ α) (handler : Fault → Job σ α) :
    Job σ α :=
  tryCatch job fun fault => if fault.isOf family then handler fault else throw fault

/-- Record a group; the null identifier leaves no entry. A failure is logged only: it does not undo
what was done to the group. -/
def recordGroup [Json.Nesting] (run : Provisioning σ) (group : GroupId) : Job σ Unit :=
  handling .ledger (Ledger.append [] group.toList run.ledgerPath) fun fault =>
    if fault.isOf .duplicate then
      Job.log .debug ("Security group " ++ group.label ++ " is already tracked")
    else
      Job.log .warning ("Failed to record security group ID to file at '" ++ run.ledgerPath ++ "', "
        ++ "security group " ++ group.label ++ " will not be deleted: " ++ fault.message)

/-- Apply changes, if there are any. -/
def applyChanges (run : Provisioning σ) (group : GroupId)
    (changes current : List Policy.SecurityRule) : Job σ Unit :=
  if changes.isEmpty then
    Job.log .info ("Security group " ++ group.label ++ " already has the required rules")
  else do
    Job.log .info (s!"Applying {changes.length} rule changes to " ++ group.label ++ ": "
      ++ String.intercalate ", " (changes.map (·.label)))
    run.provider.apply group changes current

/-- Find or create the group of a cluster, make it comply with the policy, and record it. -/
def ensureGroup [Json.Nesting] (run : Provisioning σ)
    (cluster network : String) : Job σ GroupId := do
  let requester ← run.ownAddress
  let name := run.provider.groupName cluster
  let found ← run.provider.find name
  let group ← if found.isSome then pure found else run.provider.create name
  let current ← run.provider.rules group
  run.applyChanges group (Policy.reconcile current run.provider.policy requester network) current
  if found.isNone || run.provider.recordsFoundGroups then run.recordGroup group
  return group

/-- Store the credentials of an instance. A failure is logged only. -/
def storeCredentials (run : Provisioning σ) (machine : CodeText) (credentials : Credentials) :
    Job σ Unit :=
  handling .ledger
    (Job.onFiles (Ledger.writeFile (run.credentialsPath machine) credentials.text))
    fun fault =>
      Job.log .warning ("Unable to write credentials of " ++ machine ++ ": " ++ fault.message)

/-- Record an instance; false if that failed. -/
def recordInstance [Json.Nesting] (run : Provisioning σ) (machine : CodeText) : Job σ Bool :=
  handling .ledger (do Ledger.append [machine] [] run.ledgerPath; return true) fun fault => do
    Job.log .warning ("Failed to record instance ID to file at '" ++ run.ledgerPath ++ "', "
      ++ "instance " ++ machine ++ " will not be able to be deleted: " ++ fault.message)
    return false

/-- Record an instance, and store its credentials if it could be recorded. -/
def trackInstance [Json.Nesting] (run : Provisioning σ) (machine : CodeText)
    (credentials : Option Credentials) :
    Job σ Bool := do
  let recorded ← run.recordInstance machine
  if recorded then
    match credentials with
    | some credentials => run.storeCredentials machine credentials
    | none => pure ()
  return recorded

/-- Delete a group; false if the cloud refused. -/
def deleteGroup (run : Provisioning σ) (group : CodeText) : Job σ Bool :=
  handling .provider (do run.provider.delete (some group); return true) fun fault => do
    Job.log .error ("Failed to delete security group " ++ group ++ ": " ++ fault.message)
    return false

/-- Delete groups; the ones that went away, and the ones that did not. -/
def deleteGroups (run : Provisioning σ) : List CodeText → Job σ (List CodeText × List CodeText)
  | [] => return ([], [])
  | group :: groups => do
    let deleted ← run.deleteGroup group
    let (gone, left) ← run.deleteGroups groups
    return if deleted then (group :: gone, left) else (gone, group :: left)

/-- Forget what went away. A failure is logged only. -/
def forget [Json.Nesting] (run : Provisioning σ) (machines groups : List CodeText) : Job σ Unit :=
  handling .ledger (Ledger.remove machines groups run.ledgerPath) fun fault =>
    Job.log .warning (run.ledgerPath ++ " file was not updated: " ++ fault.message)

/-- Take away a file, if there is one. A failure is logged only. -/
def dropFile (path : CodeText) : Job σ Unit := do
  if (← Job.files).present path then
    handling .ledger (Job.onFiles (Ledger.deleteFile path)) fun fault =>
      Job.log .warning ("Unable to remove file " ++ path ++ ": " ++ fault.message)

/-- Take away the credentials file of an instance. -/
def dropCredentials (run : Provisioning σ) (machine : CodeText) : Job σ Unit :=
  dropFile (run.credentialsPath machine)

/-- Terminate the instances; nothing is requested for nothing. -/
def terminate (run : Provisioning σ) (machines : List CodeText) : Job σ (List CodeText) :=
  if machines.isEmpty then return [] else run.provider.terminate machines

/-- Take down what the ledger remembers: instances first, so that their groups are free to go. -/
def teardown [Json.Nesting] (run : Provisioning σ) : Job σ Teardown := do
  Job.log .info ("Processing file '" ++ run.ledgerPath ++ "'")
  let ledger ← Job.ofExcept (Ledger.load (← Job.files) run.ledgerPath)
  let terminated ← run.terminate ledger.instances
  let (gone, left) ← run.deleteGroups ledger.groups
  run.forget terminated gone
  terminated.forM run.dropCredentials
  return {
    terminated := terminated
    deletedGroups := gone
    failed := (ledger.instances.filter fun machine => !terminated.contains machine) ++ left }

end Provisioning

end NodeLedger
