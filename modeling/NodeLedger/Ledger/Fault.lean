import NodeLedger.FileTree.Access
import NodeLedger.Json.Reader
import NodeLedger.Ledger.Content

/-!
# Faults of the ledger

- `LedgerFault`: why a ledger could not be read or changed.
- `LedgerFault.message`: its wording.
-/

namespace NodeLedger

/-- What was being done to a file. -/
inductive FileAction where
  | read
  | write
  | delete
  deriving Repr, DecidableEq

/-- The verb for an action. -/
def FileAction.verb : FileAction → String
  | read => "read"
  | write => "write"
  | delete => "delete"

/-- Why a ledger could not be read or changed. -/
inductive LedgerFault where
  /-- An entry is in the ledger, or not in it. -/
  | entry (fault : Ledger.EntryFault)
  /-- There is no ledger file. -/
  | noFile (path : CodeText)
  /-- The file is no JSON, at a place in it. -/
  | notJson (path : CodeText) (what : Json.Malformation) (line column position : Nat)
  /-- The file is JSON, but no ledger. -/
  | content (path : CodeText) (fault : Ledger.ContentFault)
  | noDirectory (path : CodeText)
  | notDirectory (path : CodeText)
  /-- The file system refused an action on the file. -/
  | file (action : FileAction) (path : CodeText) (fault : FileFault)
  deriving Repr, DecidableEq

/-- The wording of an action that failed, with what the file system said about it. -/
def actionMessage (action : String) (path : CodeText) (detail : Option String) : CodeText :=
  s!"failed to {action} '" ++ path ++ "'" ++
    match detail with
    | some detail => s!": {detail}"
    | none => ""

/-- The wording of a fault. -/
def LedgerFault.message : LedgerFault → CodeText
  | entry (.present id) => id ++ " already exist"
  | entry (.absent id) => id ++ " is not found"
  | noFile path => "tracker file '" ++ path ++ "' does not exist"
  | notJson path what line column position =>
    "tracker file '" ++ path ++ "' is not valid JSON: "
      ++ Json.malformedMessage what line column position
  | content path .notObject => "tracker file '" ++ path ++ "' does not hold a JSON object"
  | content path (.badList key) => "tracker file '" ++ path ++ s!"' has an invalid '{key}' entry"
  | noDirectory path => "directory path '" ++ path ++ "' does not exist"
  | notDirectory path => "input directory path '" ++ path ++ "' is not a directory"
  | file action path fault => actionMessage action.verb path (some fault.message)

end NodeLedger
