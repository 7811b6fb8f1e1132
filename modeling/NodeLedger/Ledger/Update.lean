import NodeLedger.Job
import NodeLedger.Ledger.File

/-!
# Updating the ledger

Every update reads the file, changes the entries and replaces the file, so nothing is kept between
updates.

- `Ledger.append`: remember more entries; an absent file counts as a ledger without entries.
- `Ledger.remove`: forget entries. The file goes away together with the last entry.
-/

namespace NodeLedger.Ledger

variable {σ : Type}

/-- The fault of entries that do not fit. -/
def entryResult (result : Except EntryFault Ledger) : Except Fault Ledger :=
  result.mapError fun fault => .ledger (.entry fault)

/-- The ledger in a file, or the empty ledger when there is no file. -/
def loadOrEmpty [Json.Nesting] (tree : FileTree) (path : CodeText) : Except Fault Ledger :=
  if tree.present path then load tree path else .ok empty

/-- Remember instances and groups. -/
def append [Json.Nesting] (instances groups : List CodeText) (path : CodeText) : Job σ Unit := do
  let ledger ← Job.ofExcept (loadOrEmpty (← Job.files) path)
  let ledger ← Job.ofExcept (entryResult (ledger.add instances groups))
  Job.onFiles (ledger.save path)
  Job.log .debug ("Tracker file '" ++ path ++ s!"' now holds {ledger.instances.length} instances "
    ++ s!"and {ledger.groups.length} security groups")

/-- Forget instances and groups. -/
def remove [Json.Nesting] (instances groups : List CodeText) (path : CodeText) : Job σ Unit := do
  let ledger ← Job.ofExcept (load (← Job.files) path)
  let ledger ← Job.ofExcept (entryResult (ledger.subtract instances groups))
  if ledger.isEmpty then
    Job.onFiles (deleteFile path)
    Job.log .debug ("Tracker file '" ++ path ++ "' is empty and was deleted")
  else Job.onFiles (ledger.save path)

end NodeLedger.Ledger
