import NodeLedger.Command.Options
import NodeLedger.FileTree.Access

/-!
# Command lines

A command line names a command after the options that hold for every command. Its further words are
looked at only after the log level was set, so a fault of the level comes first.

- `Command`: what a command line asks for.
- `Opening.read`: the options for every command, and the name of the command.
- `Command.read`: the command. The file of rules has to exist, which makes a path that no file can
  have the one fault that is not an error of usage.
-/

namespace NodeLedger

/-- The clouds that there are policies for. -/
inductive CloudName where
  | ec2
  | azure
  deriving Repr, DecidableEq

/-- The cloud of a word. -/
def CloudName.ofWord? : String → Option CloudName
  | "aws" => some .ec2
  | "azure" => some .azure
  | _ => none

/-- What a command line asks for. -/
inductive Command where
  /-- Show the ledger, for people or as JSON. -/
  | show (json : Bool)
  | track (machines groups : List String)
  | forget (machines groups : List String)
  /-- Show the changes that a policy asks of the rules in a file. -/
  | plan (file : String) (cloud : CloudName) (network : String) (requester : Option String)
  | ensureEc2 (cluster vpc network : String) (region profile : Option String)
  | destroyEc2 (region profile : Option String) (yes : Bool)
  | ensureAzure (cluster subscription resources network : String) (location : Option String)
  | destroyAzure (subscription resources : String) (yes : Bool)
  deriving Repr, DecidableEq

namespace Command

/-- Why a command line yields no command. -/
inductive Stop where
  /-- It is not a command line of the program. -/
  | usage
  /-- It asks for help. -/
  | help
  /-- No file can have a path. -/
  | noPath (fault : PathFault)
  deriving Repr, DecidableEq

/-- The commands by their first word. -/
inductive Name where
  | show
  | track
  | forget
  | plan
  | ec2
  | azure
  deriving Repr, DecidableEq

/-- The command of a first word. -/
def Name.ofWord? : String → Option Name
  | "show" => some .show
  | "track" => some .track
  | "forget" => some .forget
  | "plan-rules" => some .plan
  | "aws" => some .ec2
  | "azure" => some .azure
  | _ => none

/-- A value without which a command line is none. -/
def required {α : Type} : Option α → Except Stop α
  | some a => .ok a
  | none => .error .usage

/-- The options and words of a command. Asking for help comes before any other thing. -/
def readOwn (valued flags : List String) (interspersed : Bool) (words : List String) :
    Except Stop Reading := do
  let reading ← required (readOptions ⟨valued, flags, interspersed⟩ words)
  if reading.hasFlag helpFlag then throw .help else return reading

/-- A command takes no further words. -/
def noWords (reading : Reading) : Except Stop Unit :=
  if reading.words.isEmpty then .ok () else .error .usage

/-- What stands before the words of a command. -/
structure Opening where
  /-- The directory of the ledger. -/
  directory : Option String
  logLevel : Option String
  name : Name
  words : List String
  deriving Repr, DecidableEq

/-- The options for every command, and the name of the command. -/
def Opening.read (words : List String) : Except Stop Opening := do
  let reading ← readOwn ["--dir", "--log-level"] [] false words
  match reading.words with
  | [] => throw .usage
  | word :: rest =>
    let name ← required (Name.ofWord? word)
    return ⟨reading.value? "--dir", reading.value? "--log-level", name, rest⟩

/-- The ledger shown. -/
def readShow (words : List String) : Except Stop Command := do
  let reading ← readOwn [] ["--json"] true words
  noWords reading
  return .show (reading.hasFlag "--json")

/-- Instances and groups to remember or to forget. -/
def readEntries (words : List String) : Except Stop (List String × List String) := do
  let reading ← readOwn ["--instance-id", "--sg-id"] [] true words
  noWords reading
  return (reading.allValues "--instance-id", reading.allValues "--sg-id")

/-- The path leads to a file. -/
def checkFile (tree : FileTree) (path : String) : Except Stop Unit :=
  match Path.fault? path with
  | some fault => .error (.noPath fault)
  | none => if tree.kindOf? path == some false then .ok () else .error .usage

/-- The option names a cloud, if it is written. -/
def checkCloud (cloud : Option String) : Except Stop Unit :=
  match cloud with
  | none => .ok ()
  | some word => (required (CloudName.ofWord? word)).map fun _ => ()

/-- A plan. Options that are written are checked first, then the file, then the options that have to
be written. -/
def readPlan (tree : FileTree) (words : List String) : Except Stop Command := do
  let reading ← readOwn ["--provider", "--cidr", "--ip"] [] true words
  checkCloud (reading.value? "--provider")
  let file ← required reading.words.head?
  checkFile tree file
  let cloud ← required ((reading.value? "--provider").bind CloudName.ofWord?)
  let network ← required (reading.value? "--cidr")
  if reading.words.length ≠ 1 then throw .usage
  return .plan file cloud network (reading.value? "--ip")

/-- The words after the name of a command within a cloud. -/
def readInner (words : List String) : Except Stop (String × List String) := do
  let reading ← readOwn [] [] false words
  match reading.words with
  | [] => throw .usage
  | word :: rest => return (word, rest)

/-- The commands on EC2. -/
def readEc2 (words : List String) : Except Stop Command := do
  match ← readInner words with
  | ("ensure-sg", rest) =>
    let reading ←
      readOwn ["--infra-id", "--vpc-id", "--cidr", "--region", "--profile"] [] true rest
    let cluster ← required (reading.value? "--infra-id")
    let vpc ← required (reading.value? "--vpc-id")
    let network ← required (reading.value? "--cidr")
    noWords reading
    return .ensureEc2 cluster vpc network (reading.value? "--region") (reading.value? "--profile")
  | ("destroy", rest) =>
    let reading ← readOwn ["--region", "--profile"] ["--yes"] true rest
    noWords reading
    return .destroyEc2 (reading.value? "--region") (reading.value? "--profile")
      (reading.hasFlag "--yes")
  | _ => throw .usage

/-- The commands on Azure. -/
def readAzure (words : List String) : Except Stop Command := do
  match ← readInner words with
  | ("ensure-sg", rest) =>
    let reading ← readOwn
      ["--infra-id", "--subscription-id", "--resource-group", "--cidr", "--location"] [] true rest
    let cluster ← required (reading.value? "--infra-id")
    let subscription ← required (reading.value? "--subscription-id")
    let resources ← required (reading.value? "--resource-group")
    let network ← required (reading.value? "--cidr")
    noWords reading
    return .ensureAzure cluster subscription resources network (reading.value? "--location")
  | ("destroy", rest) =>
    let reading ← readOwn ["--subscription-id", "--resource-group"] ["--yes"] true rest
    let subscription ← required (reading.value? "--subscription-id")
    let resources ← required (reading.value? "--resource-group")
    noWords reading
    return .destroyAzure subscription resources (reading.hasFlag "--yes")
  | _ => throw .usage

/-- The command of a name and the words after it. -/
def read (tree : FileTree) (name : Name) (words : List String) : Except Stop Command :=
  match name with
  | .show => readShow words
  | .track => (readEntries words).map fun entries => .track entries.1 entries.2
  | .forget => (readEntries words).map fun entries => .forget entries.1 entries.2
  | .plan => readPlan tree words
  | .ec2 => readEc2 words
  | .azure => readAzure words

end Command

end NodeLedger
