import NodeLedger.Command.Run

/-!
# The program

The outermost layer: it takes the words and the environment of the process, observes the files that
a command line may touch, runs the command line, and carries the changes out.

- `observe`: the files on the way to a path, and those beside it.
- `carryOut`: the changes between two file trees.
- `converse`: the dialogue with whoever types. A line is read only when the program asks for it.

This build has no network: every request to the outside fails as it does without a connection.
-/

namespace NodeLedger.Program

open Cloud

/-- A world that cannot be reached. -/
def unreachable : Clouds Unit :=
  let web : OutsideFault := .request .noConnection "no connection"
  let service : OutsideFault := .service "no connection"
  { web := ⟨fun _ _ _ => (.error web, ())⟩
    ec2Session := fun _ _ _ => (.ok (), ())
    ec2Open := fun _ => (.ok (), ())
    ec2 := {
      describeGroups := fun _ _ => (.error .noCredentials, ())
      createGroup := fun _ _ _ _ => (.error .noCredentials, ())
      authorize := fun _ _ _ => (.error .noCredentials, ())
      describeInstances := fun _ _ => (.error .noCredentials, ())
      deleteGroup := fun _ _ => (.error .noCredentials, ())
      terminate := fun _ _ => (.error .noCredentials, ())
      waiter := fun _ _ => (.error .noCredentials, ())
      wait := fun _ _ => (.error .noCredentials, ()) }
    azureCredential := fun _ => (.ok (), ())
    networkOpen := fun _ _ => (.ok (), ())
    machinesOpen := fun _ _ => (.ok (), ())
    nsg := {
      getGroup := fun _ _ _ => (.error service, ())
      createGroup := fun _ _ _ _ => (.error service, ())
      updateRule := fun _ _ _ _ _ => (.error service, ())
      deleteRule := fun _ _ _ _ => (.error service, ())
      deleteMachine := fun _ _ _ => (.error service, ()) } }

/-- The variables that the settings come from. -/
def settingNames : List String :=
  ["WNI_TRACKER_DIR", "WNI_LOG_LEVEL", "WNI_IP_LOOKUP_URL", "AWS_REGION", "AWS_DEFAULT_REGION"]

/-- The variables of the process that the settings come from. -/
def environment : IO (List (String × String)) :=
  settingNames.filterMapM fun name => do
    return (← IO.getEnv name).map (name, ·)

/-- Add what stands at a location to a tree, if anything does. Where only the presence of a file
matters, its content is not read. -/
def observeAt (tree : FileTree) (location : Location) (withContent : Bool) : IO FileTree := do
  let path := (← IO.currentDir) / (Location.path location).shown
  if ← path.isDir then return tree.insert location .directory
  if !(← path.pathExists) then return tree
  let content ← if withContent then IO.FS.readBinFile path else pure ByteArray.empty
  return tree.insert location (.file content.toList plainMode)

/-- Add what a directory holds to a tree; of its files, only a ledger is read. -/
def observeEntry (directory : Location) (tree : FileTree) (name : String) : IO FileTree := do
  let location := directory ++ [CodeText.ofString name]
  if (tree.node? location).isSome then return tree
  observeAt tree location (name == Ledger.fileName)

/-- Add to a tree what stands on the way to a path, and in the directory that it leads to. -/
def observe (tree : FileTree) (path : CodeText) : IO FileTree := do
  let location := Path.names (Path.absolute tree.workDir path)
  let above := (List.range location.length).map fun n => location.take (n + 1)
  let tree ← above.foldlM (observeAt · · true) tree
  if tree.node? location == some .directory then
    let entries ← ((← IO.currentDir) / (Location.path location).shown).readDir
    (entries.toList.map (·.fileName)).foldlM (observeEntry location) tree
  else return tree

/-- Carry out the changes between two trees. A file is replaced by moving a new one into its place. -/
def carryOut (before after : FileTree) : IO Unit := do
  for (location, node) in after.nodes do
    match node with
    | .file content _ =>
      if before.node? location != some node then
        let path := (Location.path location).shown
        IO.FS.writeBinFile (path ++ ".tmp") (ByteArray.mk content.toArray)
        IO.FS.rename (path ++ ".tmp") path
    | _ => pure ()
  for (location, _) in before.nodes do
    if (after.node? location).isNone then IO.FS.removeFile (Location.path location).shown

attribute [local instance] Json.Nesting.usual

/-- Run a command line with the lines typed so far, and read another line whenever one is asked for.
What was shown before is not shown again. -/
partial def converse (settings : Settings) (words : List String) (files : FileTree)
    (typed : String) (shown : Nat) : IO UInt32 := do
  let (outcome, host) :=
    Command.runLine unreachable settings words typed { files := files, log := [], outside := () }
  (← IO.getStdout).putStr (String.ofList (outcome.terminal.output.toList.drop shown))
  (← IO.getStdout).flush
  let finish : IO UInt32 := do
    IO.eprint outcome.terminal.errors
    carryOut files host.files
    match outcome.crash with
    | some fault => IO.eprintln fault.message.shown
    | none => pure ()
    return outcome.status.toUInt32
  if outcome.terminal.errors == "Aborted!\n" then
    let line ← (← IO.getStdin).getLine
    if line.isEmpty then finish
    else converse settings words files (typed ++ line) (outcome.terminal.output.length + line.length)
  else finish

end NodeLedger.Program

/-- The program. -/
def main (words : List String) : IO UInt32 := do
  let settings := NodeLedger.Settings.ofEnvironment (← NodeLedger.Program.environment)
  let workDir := NodeLedger.Path.names (← IO.currentDir).toString
  let empty : NodeLedger.FileTree := ⟨[], workDir⟩
  let values := words.map fun word => ((NodeLedger.Command.splitOption word).2).getD "."
  let paths := settings.ledgerDirectory :: ("." :: words ++ values).map NodeLedger.CodeText.ofString
  let files ← paths.foldlM NodeLedger.Program.observe empty
  NodeLedger.Program.converse settings words files "" 0
