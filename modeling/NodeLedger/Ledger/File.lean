import NodeLedger.Fault
import NodeLedger.Json.Document

/-!
# The ledger file

The file is read whole and replaced whole. A new content is written to a new file beside it, which
then takes its place; so the file holds the old content or the new one, whatever fails in between.

- `Ledger.load`: the ledger in a file.
- `Ledger.save`: a ledger put into a file.
- `Ledger.save_eq_of_error`: **a faulty save leaves the files as they were**.
- `Ledger.pathIn`: the path of the ledger file in a directory.
-/

namespace NodeLedger.Ledger

open Text

/-- The fault of a ledger file that holds no JSON value. -/
def documentFault (path : CodeText) : Json.DocumentFault → Fault
  | .file (.refused .missing _) => .ledger (.noFile path)
  | .file fault => .ofFile .read path fault
  | .encoding fault => .encoding fault
  | .text (.malformed what line column position) =>
    .ledger (.notJson path what line column position)
  | .text (.tooManyDigits count) => .number (.tooManyDigits count)
  | .text .tooDeep => .nestedTooDeep

/-- The ledger in a file. -/
def load [Json.Nesting] (tree : FileTree) (path : CodeText) : Except Fault Ledger :=
  match Json.readFile tree path with
  | .error fault => .error (documentFault path fault)
  | .ok value => (ofJson value).mapError fun fault => .ledger (.content path fault)

/-- Put a ledger into a file. If the new file cannot take the place of the old one, it is taken away
again; only a path that no file can have leaves it behind. -/
def save (ledger : Ledger) (path : CodeText) (tree : FileTree) : Except Fault Unit × FileTree :=
  match tree.createBeside path (encode ledger.text.toList) with
  | .error fault => (.error (.ofFile .write path fault), tree)
  | .ok (location, temporary, written) =>
    match written.move location temporary path with
    | .ok moved => (.ok (), moved)
    | .error (.noPath fault) => (.error (.ofPath fault), written)
    | .error fault => (.error (.ofFile .write path fault), written.erase location)

/-- Take a file away. -/
def deleteFile (path : CodeText) (tree : FileTree) : Except Fault Unit × FileTree :=
  match tree.remove path with
  | .ok rest => (.ok (), rest)
  | .error fault => (.error (.ofFile .delete path fault), tree)

/-- Write a file. A content that is no string is refused when the file is open already, and leaves it
empty. -/
def writeFile (path content : CodeText) (tree : FileTree) : Except Fault Unit × FileTree :=
  match tree.write path (content.string?.elim [] fun text => encode text.toList) with
  | .error fault => (.error (.ofFile .write path fault), tree)
  | .ok written =>
    match content.proper with
    | .error fault => (.error (.halves fault), written)
    | .ok _ => (.ok (), written)

/-- The name of the ledger file. -/
def fileName : String := "windows-node-installer.json"

/-- The path of the ledger file in a directory that exists. -/
def pathIn (tree : FileTree) (directory : CodeText) : Except LedgerFault CodeText :=
  if directory == "" || !tree.present directory then .error (.noDirectory directory)
  else if !tree.isDirectory directory then .error (.notDirectory directory)
  else if Path.endsInSlash directory then .ok (directory ++ fileName)
  else .ok (directory ++ "/" ++ fileName)

/-- **A faulty save leaves the files as they were**, unless the path can be no file's. -/
theorem save_eq_of_error {ledger : Ledger} {path : CodeText} {tree after : FileTree} {fault : Fault}
    (h : ledger.save path tree = (.error fault, after)) (hpath : Path.fault? path = none) :
    after = tree := by
  unfold save at h
  split at h
  · cases h
    rfl
  · rename_i location temporary written hcreate
    split at h
    · cases h
    · rename_i hmove
      rw [FileTree.move_eq_noPath_iff, hpath] at hmove
      cases hmove
    · cases h
      exact FileTree.erase_of_createBeside hcreate

end NodeLedger.Ledger
