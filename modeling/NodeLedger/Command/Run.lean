import NodeLedger.Cloud.Access
import NodeLedger.Command.Line
import NodeLedger.Command.Terminal
import NodeLedger.Json.Document
import NodeLedger.Policy.Draft
import NodeLedger.Provisioning

/-!
# Running commands

- `Command.Outcome`: what a run of the program leaves: its exit status, what it wrote, and the fault
  that ended it, if any.
- `Command.runLine`: a command line, run from its words to its outcome.
- `Command.run`: a command.
-/

namespace NodeLedger.Command

open Policy

variable {σ : Type}

/-- What a command works with besides the host. -/
structure Surroundings (σ : Type) where
  clouds : Clouds σ
  settings : Settings
  /-- The directory of the ledger. -/
  directory : CodeText

namespace Surroundings

/-- The path of the ledger file. -/
def ledgerPath (around : Surroundings σ) : Job σ CodeText := do
  Job.ofExcept ((Ledger.pathIn (← Job.files) around.directory).mapError .ledger)

/-- The ledger. -/
def load [Json.Nesting] (path : CodeText) : Job σ Ledger := do
  Job.ofExcept (Ledger.load (← Job.files) path)

/-- The operator's address, from the usual service. -/
def ownAddress (around : Surroundings σ) : Job σ String :=
  Lookup.ownAddress around.clouds.web around.settings none Lookup.defaultTimeout

/-- A run on a cloud, with the ledger of the directory. -/
def provisioning (around : Surroundings σ) (provider : Cloud.Provider σ) :
    Job σ (Provisioning σ) := do
  return ⟨provider, ← around.ledgerPath, around.ownAddress⟩

/-- The EC2 region that is asked for, or the one in the settings. -/
def region (around : Surroundings σ) (asked : Option String) : String :=
  (asked.filter (· != "")).getD around.settings.region

end Surroundings

/-- Show an entry of the ledger. -/
def showEntry (entry : CodeText) : Shell σ Unit :=
  Shell.writeLine ("  • " ++ entry)

/-- Show the ledger. -/
def runShow [Json.Nesting] (around : Surroundings σ) (json : Bool) : Shell σ Unit := do
  let ledger ← Shell.attempt do Surroundings.load (← around.ledgerPath)
  if json then Shell.writeLine ledger.text
  else
    Shell.writeLine s!"📦 Instances ({ledger.instances.length}):"
    ledger.instances.forM showEntry
    Shell.writeLine s!"🔒 Security groups ({ledger.groups.length}):"
    ledger.groups.forM showEntry

/-- Remember instances and groups. -/
def runTrack [Json.Nesting] (around : Surroundings σ)
    (machines groups : List String) : Shell σ Unit := do
  let path ← Shell.attempt do
    let path ← around.ledgerPath
    Ledger.append (machines.map .ofString) (groups.map .ofString) path
    return path
  Shell.writeLine (s!"✅ Tracked {machines.length} instances and {groups.length} "
    ++ "security groups in " ++ path)

/-- Forget instances and groups. -/
def runForget [Json.Nesting] (around : Surroundings σ)
    (machines groups : List String) : Shell σ Unit := do
  let (path, left) ← Shell.attempt do
    let path ← around.ledgerPath
    Ledger.remove (machines.map .ofString) (groups.map .ofString) path
    return (path, (← Job.files).present path)
  if left then
    Shell.writeLine
      s!"✅ Forgot {machines.length} instances and {groups.length} security groups"
  else Shell.writeLine ("✅ Nothing left to track, removed " ++ path)

/-- Why a file holds no rules. -/
inductive RulesFault where
  | document (fault : Json.DocumentFault)
  | draft (fault : DraftFault)
  deriving Repr, DecidableEq

/-- The wording of a fault; values that are nested too deep end the program without one. -/
def RulesFault.message? : RulesFault → Option String
  | document (.file fault) => some fault.message
  | document (.encoding fault) => some fault.message
  | document (.text (.malformed what line column position)) =>
    some (Json.malformedMessage what line column position)
  | document (.text (.tooManyDigits count)) =>
    some (Text.IntegerFault.tooManyDigits count).message
  | document (.text .tooDeep) => none
  | draft fault => some fault.message

/-- The rules in a file. -/
def readRules [Json.Nesting] (tree : FileTree) (file : String) : Except RulesFault
    (List DraftRule) := do
  let document ← (Json.readFile tree file).mapError .document
  (DraftRule.ofDocument document).mapError .draft

/-- The policy of a cloud. -/
def policyOf : CloudName → List RequiredRule
  | .ec2 => ec2Rules
  | .azure => azureRules

/-- Show the changes that a policy asks of the rules in a file. -/
def runPlan [Json.Nesting] (around : Surroundings σ) (file : String) (cloud : CloudName)
    (network : String) (requester : Option String) : Shell σ Unit := do
  match readRules (← get).2.files file with
  | .error fault =>
    match fault.message? with
    | some message => Shell.fail s!"Invalid rules file {file}: {message}"
    | none => throw (.crash .nestedTooDeep)
  | .ok current =>
    let requester ← match requester.filter (· != "") with
      | some requester => pure requester
      | none => Shell.attempt around.ownAddress
    match DraftRule.plan current requester network (policyOf cloud) with
    | .error .notText => throw (.crash .sourceNotText)
    | .ok changes => Shell.writeLine (DraftRule.document changes).indented

/-- Take down what the ledger remembers, if the operator agrees. -/
def runDestroy [Json.Nesting] (around : Surroundings σ) (provider : Cloud.Provider σ) (yes : Bool) :
    Shell σ Unit := do
  let (run, ledger) ← Shell.attempt do
    let run ← around.provisioning provider
    return (run, ← Surroundings.load run.ledgerPath)
  Shell.writeLine (s!"🗑️  {ledger.instances.length} instances and {ledger.groups.length} "
    ++ "security groups are tracked in " ++ run.ledgerPath)
  let agreed ← if yes then pure true else Shell.confirm "Do you want to delete them?"
  if !agreed then Shell.writeLine "❌ Destruction cancelled"
  else
    let result ← Shell.attempt run.teardown
    Shell.writeLine (s!"✅ Terminated {result.terminated.length} instances, "
      ++ s!"deleted {result.deletedGroups.length} security groups")
    unless result.failed.isEmpty do
      Shell.fail ("Failed to delete: " ++ CodeText.join ", " result.failed)

/-- Run a command. -/
def run [Json.Nesting] (around : Surroundings σ) : Command → Shell σ Unit
  | .show json => runShow around json
  | .track machines groups => runTrack around machines groups
  | .forget machines groups => runForget around machines groups
  | .plan file cloud network requester => runPlan around file cloud network requester
  | .ensureEc2 cluster vpc network region profile => do
    let group ← Shell.attempt do
      let provider ← around.clouds.ec2Provider (around.region region) profile (some vpc)
      (← around.provisioning provider).ensureGroup cluster network
    Shell.writeLine ("✅ Security group " ++ group.label ++ " is ready")
  | .destroyEc2 region profile yes => do
    let provider ← Shell.attempt (around.clouds.ec2Provider (around.region region) profile none)
    runDestroy around provider yes
  | .ensureAzure cluster subscription resources network location => do
    let group ← Shell.attempt do
      let provider ← around.clouds.nsgProvider subscription resources location
      (← around.provisioning provider).ensureGroup cluster network
    Shell.writeLine ("✅ Network security group " ++ group.label ++ " is ready")
  | .destroyAzure subscription resources yes => do
    let provider ← Shell.attempt (around.clouds.nsgProvider subscription resources none)
    runDestroy around provider yes

/-- The end of a program whose command line yields no command. -/
def stop : Stop → Ending
  | .usage => .exit 2
  | .help => .exit 0
  | .noPath fault => .crash (.ofPath fault)

/-- Run a command line. The log level is set between the name of the command and the words after
it. -/
def runWords [Json.Nesting] (clouds : Clouds σ) (settings : Settings)
    (words : List String) : Shell σ Unit := do
  let opening ← liftExcept (Opening.read words)
  let level := (opening.logLevel.filter (· != "")).getD settings.logLevel
  match threshold level with
  | .error fault => throw (.crash (.level fault))
  | .ok _ =>
    let command ← liftExcept (Command.read (← get).2.files opening.name opening.words)
    let directory :=
      ((opening.directory.filter (· != "")).map .ofString).getD settings.ledgerDirectory
    run ⟨clouds, settings, directory⟩ command
where
  /-- A command line that yields no command ends the program. -/
  liftExcept {α : Type} (result : Except Stop α) : Shell σ α :=
    match result with
    | .ok a => pure a
    | .error reason => throw (stop reason)

/-- What a run of the program leaves. -/
structure Outcome where
  status : Nat
  terminal : Terminal
  /-- The fault that ended the program. -/
  crash : Option Fault

/-- Run a command line, with the text that will be typed. -/
def runLine [Json.Nesting] (clouds : Clouds σ) (settings : Settings) (words : List String)
    (typed : String) (host : Host σ) : Outcome × Host σ :=
  match StateT.run (ExceptT.run (runWords clouds settings words)) (Terminal.start typed, host) with
  | (.ok (), terminal, host) => (⟨0, terminal, none⟩, host)
  | (.error (.exit status), terminal, host) => (⟨status, terminal, none⟩, host)
  | (.error (.crash fault), terminal, host) => (⟨1, terminal, some fault⟩, host)

end NodeLedger.Command
